import SpecRecovery.Proofs.Sampling.Outcome

namespace SpecRecovery

namespace Machine

-- Whether every read of the storage names its slot by a literal. Keys of writes may be anything.
mutual

def Expr.readsLiterals : Expr → Bool
  | .lit _ | .var _ | .env _ | .selector => true
  | .binary _ left right => left.readsLiterals && right.readsLiterals
  | .isZero number => number.readsLiterals
  | .not value => value.readsLiterals
  | .ite condition first second =>
      condition.readsLiterals && first.readsLiterals && second.readsLiterals
  | .sload key store => key.literal?.isSome && store.readsLiterals
  | .keccak data => data.readsLiterals

def Store.readsLiterals : Store → Bool
  | .abstract | .concrete _ => true
  | .write key value prior => key.readsLiterals && value.readsLiterals && prior.readsLiterals

def Buffer.readsLiterals : Buffer → Bool
  | .concrete _ | .abstract _ => true
  | .write offset value base => offset.readsLiterals && value.readsLiterals && base.readsLiterals

end

def Operand.readsLiterals : Operand → Bool
  | .word value => value.readsLiterals
  | .buffer value => value.readsLiterals
  | .store value => value.readsLiterals

def Cond.readsLiterals : Cond → Bool
  | .bool _ => true
  | .eq left right => left.readsLiterals && right.readsLiterals
  | .compare _ left right => left.readsLiterals && right.readsLiterals
  | .neg inner => inner.readsLiterals
  | .join _ left right => left.readsLiterals && right.readsLiterals

def Branch.readsLiterals (branch : Branch) : Bool :=
  branch.conditions.all Cond.readsLiterals && branch.returned.readsLiterals &&
    branch.storage.values.all Store.readsLiterals

end Machine

namespace Sampling

open Machine

-- Two assignments that give the same words to all that is collected, and any others besides.
structure SameAtoms (atoms : List Atom) (first second : Assignment) : Prop where
  calldata : ∀ name, .calldata name ∈ atoms →
    first.variableValue name = second.variableValue name
  environment : ∀ value, .environment value ∈ atoms →
    first.environmentValue value = second.environmentValue value
  slot : ∀ slot, .slot slot ∈ atoms → first.storedValue slot = second.storedValue slot
  selector : .selector ∈ atoms → first.selector = second.selector

variable {first second : Assignment} {atoms part more : List Atom}

theorem SameAtoms.subset (h : SameAtoms atoms first second) (hpart : part ⊆ atoms) :
    SameAtoms part first second where
  calldata name hname := h.calldata name (hpart hname)
  environment value hvalue := h.environment value (hpart hvalue)
  slot slot hslot := h.slot slot (hpart hslot)
  selector hselector := h.selector (hpart hselector)

theorem SameAtoms.left (h : SameAtoms (part ++ more) first second) : SameAtoms part first second :=
  h.subset (List.subset_append_left _ _)

theorem SameAtoms.right (h : SameAtoms (part ++ more) first second) : SameAtoms more first second :=
  h.subset (List.subset_append_right _ _)

-- The reads of a term are collected with the slots that they name. Through a chain of writes a read
-- comes down to the base with the slot it started with, whatever the keys of the writes are.
mutual

theorem eval_of_sameAtoms : (expr : Expr) → SameAtoms (ofExpr expr) first second →
    expr.readsLiterals = true → expr.eval first = expr.eval second
  | .lit _, _, _ => rfl
  | .var name, h, _ => congrArg Except.ok (h.calldata name List.mem_cons_self)
  | .env value, h, _ => congrArg Except.ok (h.environment value List.mem_cons_self)
  | .selector, h, _ => congrArg Except.ok (h.selector List.mem_cons_self)
  | .binary op left right, h, hreads => by
      rw [Expr.readsLiterals, Bool.and_eq_true] at hreads
      rw [Expr.eval, Expr.eval, eval_of_sameAtoms left h.left hreads.1,
        eval_of_sameAtoms right h.right hreads.2]
  | .isZero number, h, hreads => by
      rw [Expr.eval, Expr.eval, eval_of_sameAtoms number h hreads]
  | .not value, h, hreads => by
      rw [Expr.eval, Expr.eval, eval_of_sameAtoms value h hreads]
  | .ite condition one other, h, hreads => by
      rw [Expr.readsLiterals, Bool.and_eq_true, Bool.and_eq_true] at hreads
      rw [Expr.eval, Expr.eval, eval_of_sameAtoms condition h.left.left hreads.1.1,
        eval_of_sameAtoms one h.left.right hreads.1.2, eval_of_sameAtoms other h.right hreads.2]
  | .sload key store, h, hreads => by
      rw [Expr.readsLiterals, Bool.and_eq_true, Option.isSome_iff_exists] at hreads
      obtain ⟨⟨slot, hkey⟩, hstore⟩ := hreads
      obtain rfl := Expr.literal?_eq_some_iff.mp hkey
      have hslot : first.storedValue slot = second.storedValue slot :=
        h.slot slot (List.mem_append_left _ (List.mem_append_left _ List.mem_cons_self))
      exact read_of_sameAtoms store h.right hstore hslot
  | .keccak data, h, hreads => by
      rw [Expr.eval, Expr.eval, bytes_of_sameAtoms data h hreads]

theorem read_of_sameAtoms {slot : Word} : (store : Store) →
    SameAtoms (ofStore store) first second → store.readsLiterals = true →
    first.storedValue slot = second.storedValue slot →
    store.read first slot = store.read second slot
  | .abstract, _, _, hslot => congrArg Except.ok hslot
  | .concrete _, _, _, _ => rfl
  | .write key value prior, h, hreads, hslot => by
      rw [Store.readsLiterals, Bool.and_eq_true, Bool.and_eq_true] at hreads
      rw [Store.read, Store.read, eval_of_sameAtoms key h.left.left.right hreads.1.1,
        eval_of_sameAtoms value h.left.right hreads.1.2,
        read_of_sameAtoms prior h.right hreads.2 hslot]

theorem bytes_of_sameAtoms : (buffer : Buffer) → SameAtoms (ofBuffer buffer) first second →
    buffer.readsLiterals = true → buffer.bytes first = buffer.bytes second
  | .concrete _, _, _ => rfl
  | .abstract _, _, _ => rfl
  | .write offset value base, h, hreads => by
      rw [Buffer.readsLiterals, Bool.and_eq_true, Bool.and_eq_true] at hreads
      rw [Buffer.bytes, Buffer.bytes, eval_of_sameAtoms offset h.left.left hreads.1.1,
        eval_of_sameAtoms value h.left.right hreads.1.2, bytes_of_sameAtoms base h.right hreads.2]

end

theorem holds_of_sameAtoms (cond : Cond) (h : SameAtoms (ofCond cond) first second)
    (hreads : cond.readsLiterals = true) : cond.holds first = cond.holds second := by
  induction cond with
  | bool => rfl
  | eq left right =>
      rw [Cond.readsLiterals, Bool.and_eq_true] at hreads
      cases left with
      | word left =>
          cases right with
          | word right =>
              rw [Cond.holds, Cond.holds, eval_of_sameAtoms left h.left hreads.1,
                eval_of_sameAtoms right h.right hreads.2]
          | buffer | store => rfl
      | buffer left =>
          cases right with
          | buffer right =>
              rw [Cond.holds, Cond.holds, bytes_of_sameAtoms left h.left hreads.1,
                bytes_of_sameAtoms right h.right hreads.2]
          | word | store => rfl
      | store left => cases right <;> rfl
  | compare op left right =>
      rw [Cond.readsLiterals, Bool.and_eq_true] at hreads
      rw [Cond.holds, Cond.holds, eval_of_sameAtoms left h.left hreads.1,
        eval_of_sameAtoms right h.right hreads.2]
  | neg inner ih => rw [Cond.holds, Cond.holds, ih h hreads]
  | join op left right ihl ihr =>
      rw [Cond.readsLiterals, Bool.and_eq_true] at hreads
      rw [Cond.holds, Cond.holds, ihl h.left hreads.1, ihr h.right hreads.2]

-- Nothing that is evaluated on a path tells the two assignments apart, whether it has a value or
-- fails: neither its conditions, nor what it returns, nor what it leaves in one of the slots.
structure Indistinct (slots : List Word) (branch : Branch) (first second : Assignment) : Prop where
  conditions : ∀ cond ∈ branch.conditions, cond.holds first = cond.holds second
  returned : branch.returned.bytes first = branch.returned.bytes second
  stored : ∀ slot ∈ slots, branch.finalStore.read first slot = branch.finalStore.read second slot

theorem indistinct_of_sameAtoms {branch : Branch} {slots : List Word}
    (hreads : branch.readsLiterals = true) (h : SameAtoms (ofBranch branch) first second)
    (hslots : ∀ slot ∈ slots, first.storedValue slot = second.storedValue slot) :
    Indistinct slots branch first second := by
  rw [Branch.readsLiterals, Bool.and_eq_true, Bool.and_eq_true, List.all_eq_true,
    List.all_eq_true] at hreads
  obtain ⟨⟨hconditions, hreturned⟩, hstorage⟩ := hreads
  refine ⟨fun cond hcond => ?_, bytes_of_sameAtoms _ h.left.right hreturned, fun slot hslot => ?_⟩
  · have hatoms := h.left.left.subset fun atom hatom => List.mem_flatMap_of_mem hcond hatom
    exact holds_of_sameAtoms cond hatoms (hconditions cond hcond)
  · unfold Branch.finalStore
    cases hstore : branch.entrypointStore? with
    | none => exact congrArg Except.ok (hslots slot hslot)
    | some store =>
        have hmem : store ∈ branch.storage.values := Table.mem_values_of_find? hstore
        have hatoms := h.right.subset fun atom hatom => List.mem_flatMap_of_mem hmem hatom
        exact read_of_sameAtoms store hatoms (hstorage store hmem) (hslots slot hslot)

section Outcomes

variable {branch : Branch} {branches : List Branch} {slots : List Word}

theorem allHold_of_indistinct (h : Indistinct slots branch first second) :
    allHold first branch.conditions = allHold second branch.conditions := by
  have hconditions := h.conditions
  generalize branch.conditions = conditions at hconditions
  induction conditions with
  | nil => rfl
  | cons cond rest ih =>
      obtain ⟨hcond, hrest⟩ := List.forall_mem_cons.mp hconditions
      rw [allHold, allHold, hcond, ih hrest]

theorem readSlots_of_indistinct (h : Indistinct slots branch first second) :
    readSlots first branch.finalStore slots = readSlots second branch.finalStore slots := by
  have hstored := h.stored
  unfold readSlots
  congr 1
  clear h
  induction slots with
  | nil => rfl
  | cons slot rest ih =>
      obtain ⟨hslot, hrest⟩ := List.forall_mem_cons.mp hstored
      rw [List.mapM_cons, List.mapM_cons, hslot, ih hrest]

-- What is observed of a path are its bytes and the slots, if the assignment fills no others.
theorem outcomeOf_of_indistinct (h : Indistinct slots branch first second)
    (hfirst : first.storage.keys ⊆ slots) (hsecond : second.storage.keys ⊆ slots) :
    outcomeOf first slots branch = outcomeOf second slots branch := by
  have hothers {keys : List Word} (hkeys : keys ⊆ slots) :
      keys.filter (fun slot => !slots.contains slot) = [] := by
    rw [List.filter_eq_nil_iff]
    intro slot hslot
    simpa using hkeys hslot
  have hread := readSlots_of_indistinct h
  unfold Branch.finalStore at hread
  simp only [outcomeOf, h.returned, hothers hfirst, hothers hsecond, List.append_nil, hread]

theorem outcome?_of_indistinct (h : ∀ branch ∈ branches, Indistinct slots branch first second)
    (hfirst : first.storage.keys ⊆ slots) (hsecond : second.storage.keys ⊆ slots) :
    outcome? first slots branches = outcome? second slots branches := by
  induction branches with
  | nil => rfl
  | cons branch rest ih =>
      obtain ⟨hbranch, hrest⟩ := List.forall_mem_cons.mp h
      rw [outcome?, outcome?, allHold_of_indistinct hbranch,
        outcomeOf_of_indistinct hbranch hfirst hsecond, ih hrest]

end Outcomes

-- Assignments that agree on what is collected from a path evaluate it alike. So what a query
-- observes of its paths does not depend on anything that is not collected from them.
theorem atoms_determine_evaluation :
    (∀ (branch : Branch) (first second : Assignment), branch.readsLiterals = true →
      SameAtoms (ofBranch branch) first second →
        Indistinct (slotsOf (ofBranch branch)) branch first second) ∧
    ∀ (query branches : List Branch) (first second : Assignment),
      (∀ branch ∈ query, branch.readsLiterals = true) → branches ⊆ query →
        SameAtoms (query.flatMap ofBranch) first second →
        first.storage.keys ⊆ slotsOf (query.flatMap ofBranch) →
        second.storage.keys ⊆ slotsOf (query.flatMap ofBranch) →
          outcome? first (slotsOf (query.flatMap ofBranch)) branches =
            outcome? second (slotsOf (query.flatMap ofBranch)) branches := by
  constructor
  · intro branch first second hreads h
    exact indistinct_of_sameAtoms hreads h fun slot hslot => h.slot slot (mem_slotsOf.mp hslot)
  · intro query branches first second hreads hbranches h hfirst hsecond
    refine outcome?_of_indistinct (fun branch hbranch => ?_) hfirst hsecond
    have hmem := hbranches hbranch
    have hatoms := h.subset fun atom hatom => List.mem_flatMap_of_mem hmem hatom
    exact indistinct_of_sameAtoms (hreads branch hmem) hatoms fun slot hslot =>
      h.slot slot (mem_slotsOf.mp hslot)

-- A path that writes to a slot which the caller chooses, over a slot that it has read below an
-- earlier write of the same kind.
def auction : Branch :=
  .ofStore [.lt (.sload (.lit 3) .abstract) (.var "bid")] (.ofWord (.env .caller))
    (.write (.var "lot")
      (.sload (.lit 7) (.write (.var "lot") (.keccak (.ofWord (.var "bid"))) .abstract)) .abstract)

def auctionCall : Assignment where
  calldata := Table.ofList [("bid", 5), ("lot", 2)]
  environment := Table.ofList [(.caller, 0xCAFE)]
  selector := 1
  storage := Table.ofList [(3, 1), (7, 9)]

-- The same call with more in it, which no part of the path looks at.
def auctionOther : Assignment where
  calldata := Table.ofList [("bid", 5), ("lot", 2), ("note", 8)]
  environment := Table.ofList [(.caller, 0xCAFE), (.timestamp, 77)]
  selector := 4
  storage := auctionCall.storage

-- And with a slot filled that is not read.
def auctionStored : Assignment :=
  { auctionOther with storage := Table.ofList [(3, 1), (7, 9), (100, 6)] }

theorem ofBranch_auction : ofBranch auction =
    [.slot 3, .literal 3, .calldata "bid", .literal 0, .environment .caller, .calldata "lot",
      .slot 7, .literal 7, .calldata "lot", .literal 0, .calldata "bid"] := by
  decide +kernel

theorem sameAtoms_auction : SameAtoms (ofBranch auction) auctionCall auctionStored := by
  rw [ofBranch_auction]
  constructor
  · intro name hname
    simp only [List.mem_cons, Atom.calldata.injEq, List.not_mem_nil, reduceCtorEq, or_false,
      false_or] at hname
    rcases hname with rfl | rfl | rfl | rfl <;> decide +kernel
  · intro value hvalue
    simp only [List.mem_cons, Atom.environment.injEq, List.not_mem_nil, reduceCtorEq, or_false,
      false_or] at hvalue
    rcases hvalue with rfl
    decide +kernel
  · intro slot hslot
    simp only [List.mem_cons, Atom.slot.injEq, List.not_mem_nil, reduceCtorEq, or_false,
      false_or] at hslot
    rcases hslot with rfl | rfl <;> decide +kernel
  · intro hselector
    simp at hselector

theorem atoms_determine_evaluation_auction :
    auction.readsLiterals = true ∧ auctionCall.storedValue 100 ≠ auctionStored.storedValue 100 ∧
      Indistinct (slotsOf (ofBranch auction)) auction auctionCall auctionStored ∧
      auctionCall.selector ≠ auctionOther.selector ∧
      outcome? auctionCall (slotsOf ([auction].flatMap ofBranch)) [auction] =
        outcome? auctionOther (slotsOf ([auction].flatMap ofBranch)) [auction] := by
  have hreads : auction.readsLiterals = true := by decide
  have hquery : [auction].flatMap ofBranch = ofBranch auction := List.append_nil _
  have hkeys : auctionCall.storage.keys = [3, 7] := by decide +kernel
  have hassigned : auctionCall.storage.keys ⊆ slotsOf ([auction].flatMap ofBranch) := by
    rw [hquery, ofBranch_auction, hkeys]
    intro slot hslot
    simp only [List.mem_cons, List.not_mem_nil, or_false] at hslot
    rcases hslot with rfl | rfl <;> exact mem_slotsOf.mpr (by decide +kernel)
  have hother : SameAtoms ([auction].flatMap ofBranch) auctionCall auctionOther := by
    rw [hquery]
    exact ⟨sameAtoms_auction.calldata, sameAtoms_auction.environment, fun _ _ => rfl,
      sameAtoms_auction.selector⟩
  exact ⟨hreads, by decide +kernel,
    atoms_determine_evaluation.1 auction auctionCall auctionStored hreads sameAtoms_auction,
    by decide,
    atoms_determine_evaluation.2 [auction] [auction] auctionCall auctionOther
      (List.forall_mem_singleton.mpr hreads) (List.Subset.refl _) hother hassigned hassigned⟩

end Sampling

end SpecRecovery
