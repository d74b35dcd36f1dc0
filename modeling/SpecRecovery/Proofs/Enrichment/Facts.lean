import Mathlib.Data.List.Nodup
import SpecRecovery.Enrichment
import SpecRecovery.Proofs.Spec.Occurrence

namespace SpecRecovery

namespace Spec

variable {interface : Interface} {reads : List IntExpr} {fact : BoolExpr} {exprs : List Expr}
  {before added after : List BoolExpr} {property other : BoolExpr → Prop}

-- The range facts that hold of an entry point which says the given expressions: its arguments, the
-- environment and the stored variables that it mentions inhabit their types. A variable does so
-- before and after, whichever of the two is mentioned.
inductive TypeFact (interface : Interface) (exprs : List Expr) : BoolExpr → Prop
  | argument {argument : Argument} (hargument : argument ∈ interface.arguments)
      (hrange : argument.type.integerRange.isSome) :
      TypeFact interface exprs (.inRange argument.type (.var argument.name argument.type))
  | environment {value : Environment} (hmentioned : (IntExpr.env value).MentionedIn exprs) :
      TypeFact interface exprs (.inRange value.type (.env value))
  | stored {mentioned : Timing} {item : StorageItem}
      (hmentioned : (IntExpr.entry mentioned item).MentionedIn exprs)
      (hrange : item.type.integerRange.isSome) (timing : Timing) :
      TypeFact interface exprs (.inRange item.type (.entry timing item))

theorem rangeFact?_eq_some {type : AbiType} {value : IntExpr} :
    rangeFact? type value = some fact ↔ type.integerRange.isSome ∧ .inRange type value = fact := by
  unfold rangeFact?
  split <;> simp_all

theorem mem_argumentFacts : fact ∈ argumentFacts interface ↔
    ∃ argument ∈ interface.arguments, argument.type.integerRange.isSome ∧
      .inRange argument.type (.var argument.name argument.type) = fact := by
  simp only [argumentFacts, List.mem_filterMap, rangeFact?_eq_some]

theorem mem_environmentOf {value : Environment} :
    value ∈ environmentOf reads ↔ IntExpr.env value ∈ reads := by
  simp only [environmentOf, List.mem_eraseDups, List.mem_filterMap]
  constructor
  · rintro ⟨expr, hexpr, hvalue⟩
    cases expr with
    | env read =>
        obtain rfl := Option.some.inj hvalue
        exact hexpr
    | _ => exact nomatch hvalue
  · intro h
    exact ⟨_, h, rfl⟩

theorem mem_itemsOf {item : StorageItem} :
    item ∈ itemsOf reads ↔ ∃ timing, IntExpr.entry timing item ∈ reads := by
  simp only [itemsOf, List.mem_eraseDups, List.mem_filterMap]
  constructor
  · rintro ⟨expr, hexpr, hitem⟩
    cases expr with
    | entry timing read =>
        obtain rfl := Option.some.inj hitem
        exact ⟨timing, hexpr⟩
    | _ => exact nomatch hitem
  · rintro ⟨timing, h⟩
    exact ⟨_, h, rfl⟩

theorem mem_storageFacts {item : StorageItem} : fact ∈ storageFacts item ↔
    item.type.integerRange.isSome ∧ ∃ timing, .inRange item.type (.entry timing item) = fact := by
  simp only [storageFacts, List.mem_append, Option.mem_toList, rangeFact?_eq_some, ← and_or_left]
  refine and_congr_right fun _ => ⟨?_, ?_⟩
  · rintro (h | h)
    · exact ⟨.pre, h⟩
    · exact ⟨.post, h⟩
  · rintro ⟨timing, h⟩
    cases timing with
    | pre => exact .inl h
    | post => exact .inr h

-- The facts are about all that is mentioned and about nothing else.
theorem mem_facts_iff (hreads : ∀ part, part ∈ reads ↔ part.MentionedIn exprs) :
    fact ∈ facts interface reads ↔ TypeFact interface exprs fact := by
  simp only [facts, List.mem_append, List.mem_map, List.mem_flatMap, mem_argumentFacts,
    mem_environmentOf, mem_itemsOf, mem_storageFacts, hreads]
  constructor
  · rintro ((⟨argument, hargument, hrange, rfl⟩ | ⟨value, hvalue, rfl⟩) |
      ⟨item, ⟨mentioned, hitem⟩, hrange, timing, rfl⟩)
    · exact .argument hargument hrange
    · exact .environment hvalue
    · exact .stored hitem hrange timing
  · rintro (⟨hargument, hrange⟩ | ⟨hvalue⟩ | ⟨hitem, hrange, timing⟩)
    · exact .inl (.inl ⟨_, hargument, hrange, rfl⟩)
    · exact .inl (.inr ⟨_, hvalue, rfl⟩)
    · exact .inr ⟨_, ⟨_, hitem⟩, hrange, timing, rfl⟩

-- Of the facts with a property, those that are not there yet are put behind what is there, each
-- once. Nothing else is.
structure Adds (property : BoolExpr → Prop) (before added after : List BoolExpr) : Prop where
  appended : after = before ++ added
  nodup : added.Nodup
  mem_added : ∀ fact, fact ∈ added ↔ property fact ∧ fact ∉ before
  complete : ∀ fact, property fact → fact ∈ after

-- A fact that is there already is passed over, and one that is not counts as there from then on.
theorem adds_extend (before facts : List BoolExpr) :
    ∃ added, Adds (· ∈ facts) before added (extend before facts) := by
  induction facts generalizing before with
  | nil => exact ⟨[], by simp [extend], .nil, by simp, by simp⟩
  | cons fact rest ih =>
      by_cases hmem : fact ∈ before
      · have hstep : extend before (fact :: rest) = extend before rest := by
          simp [extend, hmem]
        obtain ⟨added, h⟩ := ih before
        rw [hstep]
        refine ⟨added, h.appended, h.nodup, fun other => ?_, fun other hother => ?_⟩
        · rw [h.mem_added, List.mem_cons]
          refine and_congr_left fun hother => ⟨.inr, fun h => h.resolve_left ?_⟩
          rintro rfl
          exact hother hmem
        · rcases List.mem_cons.mp hother with rfl | hrest
          · rw [h.appended]
            exact List.mem_append_left added hmem
          · exact h.complete other hrest
      · have hstep : extend before (fact :: rest) = extend (before ++ [fact]) rest := by
          simp [extend, hmem]
        obtain ⟨added, h⟩ := ih (before ++ [fact])
        have hfact : fact ∉ added := by simp [h.mem_added]
        rw [hstep]
        refine ⟨fact :: added, by simp [h.appended], List.nodup_cons.mpr ⟨hfact, h.nodup⟩,
          fun other => ?_, fun other hother => ?_⟩
        · simp only [List.mem_cons, h.mem_added, List.mem_append, List.not_mem_nil, or_false,
            not_or]
          by_cases hsame : other = fact
          · simp [hsame, hmem]
          · simp [hsame]
        · rcases List.mem_cons.mp hother with rfl | hrest
          · simp [h.appended]
          · exact h.complete other hrest

theorem Adds.congr (h : Adds property before added after)
    (hsame : ∀ fact, property fact ↔ other fact) : Adds other before added after := by
  obtain rfl : property = other := funext fun fact => propext (hsame fact)
  exact h

-- Where all facts with the property are there already, nothing changes.
theorem Adds.eq_of_complete (h : Adds property before added after)
    (hcomplete : ∀ fact, property fact → fact ∈ before) : after = before := by
  have hnothing : added = [] := by
    refine List.eq_nil_iff_forall_not_mem.mpr fun fact hfact => ?_
    obtain ⟨hproperty, hnew⟩ := (h.mem_added fact).mp hfact
    exact hnew (hcomplete fact hproperty)
  rw [h.appended, hnothing, List.append_nil]

-- Such a fact mentions nothing that is new. The other state of a stored variable is the exception,
-- but the facts about a variable are those of both states.
theorem TypeFact.mentioned {part : IntExpr} (h : TypeFact interface exprs fact)
    (hpart : (Expr.integer part).OccursIn (.boolean fact)) :
    (∃ name type, part = .var name type) ∨ (∃ value, part = .env value ∧ part.MentionedIn exprs) ∨
      ∃ timing mentioned item, part = .entry timing item ∧
        (IntExpr.entry mentioned item).MentionedIn exprs := by
  have hvisited := Expr.mem_visited_iff_occursIn.mpr hpart
  cases h with
  | argument =>
      rw [Expr.visited, BoolExpr.visited, IntExpr.visited, List.mem_singleton] at hvisited
      exact .inl ⟨_, _, hvisited⟩
  | environment hmentioned =>
      rw [Expr.visited, BoolExpr.visited, IntExpr.visited, List.mem_singleton] at hvisited
      exact .inr (.inl ⟨_, hvisited, hvisited ▸ hmentioned⟩)
  | stored hmentioned =>
      rw [Expr.visited, BoolExpr.visited, IntExpr.visited, List.mem_singleton] at hvisited
      exact .inr (.inr ⟨_, _, _, hvisited, hmentioned⟩)

-- So no more facts hold when facts that hold are said as well.
theorem TypeFact.of_said {said : List Expr} (h : TypeFact interface said fact)
    (hsaid : ∀ expr ∈ said, expr ∈ exprs ∨ ∃ known, TypeFact interface exprs known ∧
      expr = .boolean known) : TypeFact interface exprs fact := by
  cases h with
  | argument hargument hrange => exact .argument hargument hrange
  | @environment value hmentioned =>
      obtain ⟨expr, hexpr, hoccurs⟩ := hmentioned
      rcases hsaid expr hexpr with hold | ⟨known, hknown, rfl⟩
      · exact .environment ⟨expr, hold, hoccurs⟩
      · rcases hknown.mentioned hoccurs with ⟨_, _, h⟩ | ⟨_, _, h⟩ | ⟨_, _, _, h, _⟩
        · exact nomatch h
        · exact .environment h
        · exact nomatch h
  | @stored mentioned item hmentioned hrange timing =>
      obtain ⟨expr, hexpr, hoccurs⟩ := hmentioned
      rcases hsaid expr hexpr with hold | ⟨known, hknown, rfl⟩
      · exact .stored ⟨expr, hold, hoccurs⟩ hrange timing
      · rcases hknown.mentioned hoccurs with ⟨_, _, h⟩ | ⟨_, h, _⟩ | ⟨_, _, _, h, hmentioned⟩
        · exact nomatch h
        · exact nomatch h
        · obtain ⟨rfl, rfl⟩ := IntExpr.entry.inj h
          exact .stored hmentioned hrange timing

-- What was added is not looked at again.
theorem Adds.eq_of_again {others : List Expr} {more last : List BoolExpr}
    (h : Adds (TypeFact interface (before.map .boolean ++ others)) before added after)
    (hagain : Adds (TypeFact interface (after.map .boolean ++ others)) after more last) :
    last = after := by
  refine hagain.eq_of_complete fun fact hfact => h.complete fact (hfact.of_said ?_)
  intro expr hexpr
  rw [h.appended, List.map_append, List.mem_append, List.mem_append] at hexpr
  rcases hexpr with (hold | hnew) | hother
  · exact .inl (List.mem_append_left _ hold)
  · obtain ⟨known, hknown, rfl⟩ := List.mem_map.mp hnew
    exact .inr ⟨known, ((h.mem_added known).mp hknown).1, rfl⟩
  · exact .inl (List.mem_append_right _ hother)

theorem Constructor.adds_enrich (constructor : Constructor) : ∃ added,
    Adds (TypeFact constructor.interface constructor.exprs) constructor.preconditions added
      constructor.enrich.preconditions := by
  obtain ⟨added, h⟩ := adds_extend constructor.preconditions
    (facts constructor.interface constructor.reads)
  exact ⟨added, h.congr fun _ => mem_facts_iff fun _ => Constructor.mem_reads_iff⟩

theorem Constructor.enrich_enrich (constructor : Constructor) :
    constructor.enrich.enrich = constructor.enrich := by
  obtain ⟨_, hfirst⟩ := constructor.adds_enrich
  obtain ⟨_, hsecond⟩ := constructor.enrich.adds_enrich
  have hsame := hfirst.eq_of_again hsecond
  calc constructor.enrich.enrich
    _ = { constructor.enrich with preconditions := constructor.enrich.enrich.preconditions } := rfl
    _ = constructor.enrich := by rw [hsame]

theorem Behaviour.adds_enrich (behaviour : Behaviour) : ∃ added,
    Adds (TypeFact behaviour.interface behaviour.exprs) behaviour.preconditions added
      behaviour.enrich.preconditions := by
  obtain ⟨added, h⟩ := adds_extend behaviour.preconditions
    (facts behaviour.interface behaviour.reads)
  exact ⟨added, h.congr fun _ => mem_facts_iff fun _ => Behaviour.mem_reads_iff⟩

theorem Behaviour.enrich_enrich (behaviour : Behaviour) :
    behaviour.enrich.enrich = behaviour.enrich := by
  obtain ⟨_, hfirst⟩ := behaviour.adds_enrich
  obtain ⟨_, hsecond⟩ := behaviour.enrich.adds_enrich
  have hsame := hfirst.eq_of_again hsecond
  calc behaviour.enrich.enrich
    _ = { behaviour.enrich with preconditions := behaviour.enrich.enrich.preconditions } := rfl
    _ = behaviour.enrich := by rw [hsame]

end Spec

namespace Specification

open Spec

theorem enrich_enrich (specification : Specification) :
    specification.enrich.enrich = specification.enrich := by
  have hbehaviours : specification.enrich.enrich.behaviours = specification.enrich.behaviours := by
    simp only [enrich, List.map_map]
    exact List.map_congr_left fun behaviour _ => behaviour.enrich_enrich
  calc specification.enrich.enrich
    _ = { specification.enrich with
          constructor := specification.constructor.enrich.enrich
          behaviours := specification.enrich.enrich.behaviours } := rfl
    _ = specification.enrich := by
      rw [Constructor.enrich_enrich, hbehaviours]
      rfl

-- Enriching changes nothing but preconditions. It puts behind them the range facts about all that
-- an entry point is given or mentions, as far as they are not there yet, and no others. Once is
-- enough.
theorem enrich_adds_missing_facts (specification : Specification) :
    specification.enrich = { specification with
      constructor := specification.enrich.constructor
      behaviours := specification.enrich.behaviours } ∧
    specification.enrich.constructor = { specification.constructor with
      preconditions := specification.enrich.constructor.preconditions } ∧
    (∃ added, Adds (TypeFact specification.constructor.interface specification.constructor.exprs)
      specification.constructor.preconditions added
      specification.enrich.constructor.preconditions) ∧
    List.Forall₂ (fun before after =>
      after = { before with preconditions := after.preconditions } ∧
        ∃ added, Adds (TypeFact before.interface before.exprs) before.preconditions added
          after.preconditions)
      specification.behaviours specification.enrich.behaviours ∧
    specification.enrich.enrich = specification.enrich := by
  refine ⟨rfl, rfl, specification.constructor.adds_enrich, ?_, specification.enrich_enrich⟩
  refine List.forall₂_map_right_iff.mpr (List.forall₂_same.mpr fun behaviour _ => ?_)
  exact ⟨rfl, behaviour.adds_enrich⟩

end Specification

end SpecRecovery
