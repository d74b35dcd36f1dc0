import SpecRecovery.Proofs.Machine.Denotation

namespace SpecRecovery.Machine

-- The word that stands on one side of an equality, if there is one.
def Operand.words : Operand → List Expr
  | .word value => [value]
  | .buffer _ | .store _ => []

-- Both have a value, and the word is 1 if the proposition holds and 0 if it does not.
def Expr.Encodes (assignment : Assignment) (term : Expr) (cond : Cond) : Prop :=
  ∃ truth, cond.holds assignment = .ok truth ∧ term.eval assignment = .ok (Word.ofBool truth)

namespace Cond

-- Every proposition within a proposition, itself included.
@[simp]
def parts : Cond → List Cond
  | .bool value => [.bool value]
  | .eq left right => [.eq left right]
  | .compare op left right => [.compare op left right]
  | .neg inner => .neg inner :: inner.parts
  | .join op left right => .join op left right :: (left.parts ++ right.parts)

-- The words that are compared anywhere within a proposition.
@[simp]
def words : Cond → List Expr
  | .bool _ => []
  | .eq left right => left.words ++ right.words
  | .compare _ left right => [left, right]
  | .neg inner => inner.words
  | .join _ left right => left.words ++ right.words

-- No equality within the proposition is about anything else than two words.
def ComparesWords (cond : Cond) : Prop :=
  ∀ left right, .eq left right ∈ cond.parts →
    ∃ first second, left = .word first ∧ right = .word second

-- Every word that the proposition compares has a value, whether or not the truth depends on it.
def Evaluates (assignment : Assignment) (cond : Cond) : Prop :=
  ∀ word ∈ cond.words, ∃ value, word.eval assignment = .ok value

variable {assignment : Assignment} {cond inner left right part : Cond}

theorem comparesWords_bool (value : Bool) : (Cond.bool value).ComparesWords := by
  intro left right hpart
  simp at hpart

theorem comparesWords_compare (op : Comparison) (left right : Expr) :
    (Cond.compare op left right).ComparesWords := by
  intro left right hpart
  simp at hpart

theorem comparesWords_eq {left right : Operand} :
    (Cond.eq left right).ComparesWords ↔
      ∃ first second, left = .word first ∧ right = .word second := by
  constructor
  · intro h
    exact h left right (List.mem_singleton_self _)
  · rintro ⟨first, second, rfl, rfl⟩ left right hpart
    cases List.mem_singleton.mp hpart
    exact ⟨first, second, rfl, rfl⟩

theorem comparesWords_neg : (Cond.neg inner).ComparesWords ↔ inner.ComparesWords := by
  refine forall₂_congr fun _ _ => ?_
  simp

theorem comparesWords_join {op : Connective} :
    (Cond.join op left right).ComparesWords ↔ left.ComparesWords ∧ right.ComparesWords := by
  constructor
  · intro h
    exact ⟨fun _ _ hpart => h _ _ (by simp [hpart]), fun _ _ hpart => h _ _ (by simp [hpart])⟩
  · rintro ⟨hl, hr⟩ _ _ hpart
    rcases List.mem_append.mp ((List.mem_cons.mp hpart).resolve_left nofun) with hpart | hpart
    · exact hl _ _ hpart
    · exact hr _ _ hpart

theorem evaluates_pair {left right : Expr} {cond : Cond} (h : cond.words = [left, right]) :
    cond.Evaluates assignment ↔
      (∃ value, left.eval assignment = .ok value) ∧
        ∃ value, right.eval assignment = .ok value := by
  change (∀ word ∈ cond.words, _) ↔ _
  simp [h]

theorem evaluates_join {op : Connective} :
    (Cond.join op left right).Evaluates assignment ↔
      left.Evaluates assignment ∧ right.Evaluates assignment := List.forall_mem_append

-- What negations and connectives hand down to their sides holds for all parts.
theorem of_mem_parts {motive : Cond → Prop} (hneg : ∀ inner, motive (.neg inner) → motive inner)
    (hjoin : ∀ op left right, motive (.join op left right) → motive left ∧ motive right)
    (hpart : part ∈ cond.parts) (h : motive cond) : motive part := by
  induction cond with
  | bool | eq | compare =>
      rw [parts, List.mem_singleton] at hpart
      exact hpart ▸ h
  | neg inner ih =>
      rcases List.mem_cons.mp hpart with rfl | hpart
      · exact h
      · exact ih hpart (hneg inner h)
  | join op left right ihl ihr =>
      rcases List.mem_cons.mp hpart with rfl | hpart
      · exact h
      · obtain ⟨hl, hr⟩ := hjoin op left right h
        exact (List.mem_append.mp hpart).elim (ihl · hl) (ihr · hr)

theorem ComparesWords.of_mem_parts (h : cond.ComparesWords) (hpart : part ∈ cond.parts) :
    part.ComparesWords :=
  Cond.of_mem_parts (fun _ => comparesWords_neg.mp) (fun _ _ _ => comparesWords_join.mp) hpart h

theorem Evaluates.of_mem_parts (h : cond.Evaluates assignment) (hpart : part ∈ cond.parts) :
    part.Evaluates assignment :=
  Cond.of_mem_parts (fun _ => id) (fun _ _ _ => evaluates_join.mp) hpart h

-- There is a word for a proposition exactly if its equalities are about words.
theorem exists_toExpr_iff : (∃ term, cond.toExpr = .ok term) ↔ cond.ComparesWords := by
  induction cond with
  | bool value => exact ⟨fun _ => comparesWords_bool value, fun _ => ⟨_, rfl⟩⟩
  | compare op left right =>
      exact ⟨fun _ => comparesWords_compare op left right, fun _ => ⟨_, rfl⟩⟩
  | eq left right =>
      rw [comparesWords_eq]
      constructor
      · rintro ⟨term, hterm⟩
        cases left with
        | word first =>
            cases right with
            | word second => exact ⟨first, second, rfl, rfl⟩
            | buffer | store => exact nomatch hterm
        | buffer | store => exact nomatch hterm
      · rintro ⟨first, second, rfl, rfl⟩
        exact ⟨_, rfl⟩
  | neg inner ih =>
      rw [comparesWords_neg, ← ih]
      constructor
      · rintro ⟨term, hterm⟩
        obtain ⟨number, hnumber, -⟩ := toExpr_neg_eq_ok.mp hterm
        exact ⟨number, hnumber⟩
      · rintro ⟨number, hnumber⟩
        exact ⟨_, toExpr_neg_eq_ok.mpr ⟨number, hnumber, rfl⟩⟩
  | join op left right ihl ihr =>
      rw [comparesWords_join, ← ihl, ← ihr]
      constructor
      · rintro ⟨term, hterm⟩
        obtain ⟨first, second, hfirst, hsecond, -⟩ := toExpr_join_eq_ok.mp hterm
        exact ⟨⟨first, hfirst⟩, second, hsecond⟩
      · rintro ⟨⟨first, hfirst⟩, second, hsecond⟩
        exact ⟨_, toExpr_join_eq_ok.mpr ⟨first, second, hfirst, hsecond, rfl⟩⟩

-- The word of a proposition leaves nothing out, unlike its truth: all that is compared is needed.
theorem exists_eval_iff {term : Expr} (hterm : cond.toExpr = .ok term) :
    (∃ value, term.eval assignment = .ok value) ↔ cond.Evaluates assignment := by
  induction cond generalizing term with
  | bool value =>
      obtain rfl := Except.ok.inj hterm
      exact ⟨fun _ _ hword => (nomatch hword), fun _ => ⟨_, rfl⟩⟩
  | eq left right =>
      obtain ⟨first, second, rfl, rfl⟩ := comparesWords_eq.mp (exists_toExpr_iff.mp ⟨term, hterm⟩)
      obtain rfl := Except.ok.inj hterm
      rw [Expr.equals, Expr.exists_eval_binary_iff, evaluates_pair rfl]
  | compare op left right =>
      obtain rfl := Except.ok.inj hterm
      rw [Expr.exists_eval_binary_iff, evaluates_pair rfl]
  | neg inner ih =>
      obtain ⟨number, hnumber, rfl⟩ := toExpr_neg_eq_ok.mp hterm
      rw [Expr.exists_eval_isZero_iff, ih hnumber]
      rfl
  | join op left right ihl ihr =>
      obtain ⟨first, second, hfirst, hsecond, rfl⟩ := toExpr_join_eq_ok.mp hterm
      rw [exists_eval_joined_iff, ihl hfirst, ihr hsecond, evaluates_join]

-- The left side decides the truth, but its word is computed from both.
example :
    let cond := join .and (.bool false) (.eqWords (.keccak (.abstract "proof")) (.lit 0))
    cond.holds .empty = .ok false ∧
      ∃ term, cond.toExpr = .ok term ∧ term.eval .empty = .error (.abstractBuffer "proof") :=
  ⟨rfl, _, rfl, rfl⟩

-- The proposition and its word are evaluated alike, because the word of every part is 0 or 1.
theorem exists_denotes (hwords : cond.ComparesWords) (heval : cond.Evaluates assignment) :
    ∃ truth, cond.Denotes assignment truth := by
  induction cond with
  | bool value => exact ⟨value, denotes_bool value⟩
  | eq left right =>
      obtain ⟨first, second, rfl, rfl⟩ := comparesWords_eq.mp hwords
      obtain ⟨⟨one, hone⟩, other, hother⟩ := (evaluates_pair rfl).mp heval
      exact ⟨one == other, denotes_eqWords hone hother⟩
  | compare op left right =>
      obtain ⟨⟨one, hone⟩, other, hother⟩ := (evaluates_pair rfl).mp heval
      exact ⟨op.onWords one other, denotes_compare op hone hother⟩
  | neg inner ih =>
      obtain ⟨truth, htruth⟩ := ih (comparesWords_neg.mp hwords) heval
      exact ⟨!truth, htruth.neg⟩
  | join op left right ihl ihr =>
      rw [comparesWords_join] at hwords
      rw [evaluates_join] at heval
      obtain ⟨one, hone⟩ := ihl hwords.1 heval.1
      obtain ⟨other, hother⟩ := ihr hwords.2 heval.2
      exact ⟨(op.decided? one).getD other, hone.join op hother⟩

-- A negation can be taken away, because the word below it is 0 or 1 already.
theorem Denotes.opposite {truth : Bool} (h : cond.Denotes assignment truth) :
    cond.opposite.Denotes assignment !truth := by
  unfold Cond.opposite
  split
  · next value =>
      rw [h.unique (denotes_bool value)]
      exact denotes_bool !value
  · next inner =>
      obtain ⟨term, hterm, hvalue⟩ := h.2
      have hwords := comparesWords_neg.mp (exists_toExpr_iff.mp ⟨term, hterm⟩)
      have heval : inner.Evaluates assignment := (exists_eval_iff hterm).mp ⟨_, hvalue⟩
      obtain ⟨bit, hbit⟩ := exists_denotes hwords heval
      rw [h.unique hbit.neg, Bool.not_not]
      exact hbit
  · exact h.neg

theorem encodes_of_toExpr {term : Expr} (hterm : cond.toExpr = .ok term)
    (heval : cond.Evaluates assignment) : term.Encodes assignment cond := by
  obtain ⟨truth, hholds, same, hsame, hvalue⟩ :=
    exists_denotes (exists_toExpr_iff.mp ⟨term, hterm⟩) heval
  obtain rfl := Except.ok.inj (hsame.symm.trans hterm)
  exact ⟨truth, hholds, hvalue⟩

-- A proposition has a word exactly if it compares nothing but words, and the word has a value
-- exactly if all of these have one. Then it is 1 or 0 as the proposition holds or not, and the
-- machine's bitwise operations join the words of any two parts as the connectives join the parts.
theorem word_encoding_exact (cond : Cond) :
    ((∃ term, cond.toExpr = .ok term) ↔ cond.ComparesWords) ∧
    ∀ term, cond.toExpr = .ok term → ∀ assignment : Assignment,
      ((∃ value, term.eval assignment = .ok value) ↔ cond.Evaluates assignment) ∧
      (cond.Evaluates assignment →
        term.Encodes assignment cond ∧
        ∀ left ∈ cond.parts, ∀ right ∈ cond.parts, ∃ first second,
          left.toExpr = .ok first ∧ right.toExpr = .ok second ∧
          (Expr.binary .and first second).Encodes assignment (.join .and left right) ∧
          (Expr.binary .or first second).Encodes assignment (.join .or left right)) := by
  refine ⟨exists_toExpr_iff, fun term hterm assignment => ⟨exists_eval_iff hterm, fun heval =>
    ⟨encodes_of_toExpr hterm heval, fun left hleft right hright => ?_⟩⟩⟩
  have hwords := exists_toExpr_iff.mp ⟨term, hterm⟩
  obtain ⟨first, hfirst⟩ := exists_toExpr_iff.mpr (hwords.of_mem_parts hleft)
  obtain ⟨second, hsecond⟩ := exists_toExpr_iff.mpr (hwords.of_mem_parts hright)
  have hjoined : ∀ op, (Cond.join op left right).toExpr = .ok (joined op first second) := fun op =>
    toExpr_join_eq_ok.mpr ⟨first, second, hfirst, hsecond, rfl⟩
  have hboth : ∀ op, (Cond.join op left right).Evaluates assignment := fun op =>
    evaluates_join.mpr ⟨heval.of_mem_parts hleft, heval.of_mem_parts hright⟩
  exact ⟨first, second, hfirst, hsecond, encodes_of_toExpr (hjoined .and) (hboth .and),
    encodes_of_toExpr (hjoined .or) (hboth .or)⟩

-- Within the limit the owner may take any amount, and others what is there.
def withdrawalRule : Cond :=
  .join .impl (.neg (.lt (.var "limit") (.var "amount")))
    (.join .or (.eqWords (.env .caller) (.lit 7)) (.leq (.var "amount") (.sload (.lit 1) .abstract)))

def overdraft : Assignment :=
  { Assignment.empty with
    calldata := .ofList [("amount", 5), ("limit", 9)]
    environment := .ofList [(.caller, 8)]
    storage := .ofList [(1, 3)] }

theorem word_encoding_exact_overdraft :
    ∃ term, withdrawalRule.toExpr = .ok term ∧ withdrawalRule.Evaluates overdraft ∧
      withdrawalRule.holds overdraft = .ok false ∧ term.eval overdraft = .ok 0 := by
  have hvalues : withdrawalRule.words.mapM (Expr.eval overdraft) = .ok [9, 5, 8, 7, 5, 3] := rfl
  have hevaluates : withdrawalRule.Evaluates overdraft := exists_mapM_iff.mp ⟨_, hvalues⟩
  have hholds : withdrawalRule.holds overdraft = .ok false := rfl
  obtain ⟨-, hencodes⟩ := word_encoding_exact withdrawalRule
  obtain ⟨term, hterm⟩ : ∃ term, withdrawalRule.toExpr = .ok term := ⟨_, rfl⟩
  obtain ⟨truth, hsame, hvalue⟩ := ((hencodes term hterm overdraft).2 hevaluates).1
  obtain rfl := Except.ok.inj (hholds.symm.trans hsame)
  exact ⟨term, hterm, hevaluates, hholds, hvalue⟩

end Cond

end SpecRecovery.Machine
