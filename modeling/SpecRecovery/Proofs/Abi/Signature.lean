import SpecRecovery.Exploration.Summary
import SpecRecovery.Proofs.Abi.Spelling
import SpecRecovery.Spec.Specification

namespace SpecRecovery

namespace AbiType

open Text

-- The word of a name and the number behind it. Arrays and tuples have no names.
def name? : AbiType → Option (String × Option Nat)
  | uint size => some ("uint", some size)
  | int size => some ("int", some size)
  | address => some ("address", none)
  | bool => some ("bool", none)
  | bytes length => some ("bytes", some length)
  | dynBytes => some ("bytes", none)
  | string => some ("string", none)
  | function => some ("function", none)
  | array _ _ | dynArray _ | tuple _ => none

def numberText (number : Option Nat) : List Char := (number.map decimalDigits).getD []

variable {first second type : AbiType}

theorem eq_of_name? (hsome : first.name? ≠ none) (h : first.name? = second.name?) :
    first = second := by
  cases first <;> cases second <;> simp_all [name?]

theorem numberText_injective : Function.Injective numberText := by
  intro first second h
  cases first with
  | none =>
      cases second with
      | none => rfl
      | some number => exact absurd h.symm (decimalDigits_ne_nil number)
  | some number =>
      cases second with
      | none => exact absurd h (decimalDigits_ne_nil number)
      | some other => rw [decimalDigits_injective h]

theorem isDecimal_of_mem_numberText {number : Option Nat} :
    ∀ digit ∈ numberText number, isDecimal digit = true := by
  cases number with
  | none => exact List.forall_mem_nil _
  | some number => exact isDecimal_of_mem_decimalDigits

theorem spelling_of_name? {word : String} {number : Option Nat}
    (h : type.name? = some (word, number)) :
    spelling type = word.toList ++ numberText number ∧ Unbroken word.toList ∧
      word.toList.filter isDecimal = [] := by
  cases type with
  | array | dynArray | tuple => exact nomatch h
  | _ =>
      obtain ⟨rfl, rfl⟩ := Prod.mk.inj (Option.some.inj h)
      exact ⟨rfl, by decide, by decide⟩

-- No word has a digit in it, so that the digits are the number and the other characters the word.
theorem filter_spelling_of_name? {word : String} {number : Option Nat}
    (h : type.name? = some (word, number)) :
    (spelling type).filter isDecimal = numberText number ∧
      (spelling type).filter (fun char => !isDecimal char) = word.toList := by
  obtain ⟨hspelling, -, hword⟩ := spelling_of_name? h
  have hnumber : ∀ digit ∈ numberText number, isDecimal digit = true := isDecimal_of_mem_numberText
  rw [hspelling, List.filter_append, List.filter_append]
  constructor
  · rw [hword, List.filter_eq_self.mpr hnumber, List.nil_append]
  · rw [List.filter_eq_self.mpr (by simpa using List.filter_eq_nil_iff.mp hword),
      List.filter_eq_nil_iff.mpr (by simpa using hnumber), List.append_nil]

theorem eq_of_spelling_of_names (hfirst : first.name? ≠ none) (hsecond : second.name? ≠ none)
    (h : spelling first = spelling second) : first = second := by
  obtain ⟨⟨word, number⟩, hname⟩ := Option.ne_none_iff_exists'.mp hfirst
  obtain ⟨⟨other, count⟩, hother⟩ := Option.ne_none_iff_exists'.mp hsecond
  obtain ⟨hdigits, hletters⟩ := filter_spelling_of_name? hname
  rw [h] at hdigits hletters
  obtain ⟨hcount, hword⟩ := filter_spelling_of_name? hother
  obtain rfl := numberText_injective (hdigits.symm.trans hcount)
  obtain rfl := String.toList_inj.mp (hletters.symm.trans hword)
  exact eq_of_name? hfirst (hname.trans hother.symm)

theorem unbroken_of_name? (h : type.name? ≠ none) : Unbroken (spelling type) := by
  obtain ⟨⟨word, number⟩, hname⟩ := Option.ne_none_iff_exists'.mp h
  obtain ⟨hspelling, hword, -⟩ := spelling_of_name? hname
  rw [hspelling]
  exact List.forall_mem_append.mpr
    ⟨hword, unbroken_of_forall_isDecimal isDecimal_of_mem_numberText⟩

-- What closes a spelling. A name is not closed.
def closing? : AbiType → Option Char
  | array _ _ | dynArray _ => some ']'
  | tuple _ => some ')'
  | _ => none

theorem closing?_eq_none_iff : type.closing? = none ↔ type.name? ≠ none := by
  cases type <;> simp [closing?, name?]

theorem closing?_eq_getLast? (type : AbiType) :
    type.closing? = (spelling type).getLast?.filter fun char => char == ']' || char == ')' := by
  by_cases hname : type.name? = none
  · cases type with
    | array size element =>
        rw [spelling_array, List.getLast?_concat]
        rfl
    | dynArray element =>
        rw [spelling_dynArray, List.getLast?_append]
        rfl
    | tuple elements =>
        rw [spelling_tuple, List.getLast?_concat]
        rfl
    | _ => simp [name?] at hname
  · rw [closing?_eq_none_iff.mpr hname, eq_comm, Option.filter_eq_none_iff]
    intro char hchar
    obtain ⟨hseparator, hbracket⟩ := unbroken_of_name? hname char (List.mem_of_getLast? hchar)
    simp_all [isSeparator, isParenthesis]

theorem closing?_congr (h : spelling first = spelling second) :
    first.closing? = second.closing? := by
  rw [closing?_eq_getLast?, h, ← closing?_eq_getLast?]

-- There is one way only to cut off the last dimension.
theorem dimension_unique {before other dimension size : List Char} (hdimension : '[' ∉ dimension)
    (hsize : '[' ∉ size)
    (h : before ++ '[' :: dimension ++ [']'] = other ++ '[' :: size ++ [']']) :
    before = other ∧ dimension = size := by
  have hreversed := congrArg List.reverse (List.append_cancel_right h)
  simp only [List.reverse_append, List.reverse_cons, List.append_assoc, List.singleton_append]
    at hreversed
  have hcut := congrArg cutDimension? hreversed
  rw [cutDimension?_append hdimension, cutDimension?_append hsize] at hcut
  simpa using hcut

theorem spelling_unsized (element : AbiType) :
    spelling (dynArray element) = spelling element ++ '[' :: [] ++ [']'] := by
  rw [spelling_dynArray, List.append_assoc]
  rfl

-- The commas outside of all parentheses separate the elements.
theorem map_spelling_of_spellings {firsts seconds : List AbiType}
    (h : spellings firsts = spellings seconds) :
    firsts.map spelling = seconds.map spelling := by
  have hpieces := congrArg elementPieces h
  rw [elementPieces_spellings, elementPieces_spellings] at hpieces
  simpa [Function.comp_def] using congrArg (List.map List.reverse) hpieces

-- By recursion on the first type. The end of the spelling tells which kind the second one is.
mutual

theorem eq_of_spelling : (first second : AbiType) → spelling first = spelling second →
    first = second
  | array size element, second, h => by
      have hsize := openingBracket_not_mem_decimalDigits size.toNat
      have hclosing := closing?_congr h
      cases second with
      | array other inner =>
          have hother := openingBracket_not_mem_decimalDigits other.toNat
          obtain ⟨helement, hdigits⟩ := dimension_unique hsize hother h
          rw [eq_of_spelling element inner helement,
            BitVec.eq_of_toNat_eq (decimalDigits_injective hdigits)]
      | dynArray inner =>
          rw [spelling_unsized] at h
          obtain ⟨-, hdigits⟩ := dimension_unique hsize List.not_mem_nil h
          exact absurd hdigits (decimalDigits_ne_nil _)
      | _ => exact nomatch hclosing
  | dynArray element, second, h => by
      have hclosing := closing?_congr h
      cases second with
      | array other inner =>
          have hother := openingBracket_not_mem_decimalDigits other.toNat
          rw [spelling_unsized] at h
          obtain ⟨-, hdigits⟩ := dimension_unique List.not_mem_nil hother h
          exact absurd hdigits.symm (decimalDigits_ne_nil _)
      | dynArray inner => rw [eq_of_spelling element inner (List.append_cancel_right h)]
      | _ => exact nomatch hclosing
  | tuple elements, second, h => by
      have hclosing := closing?_congr h
      cases second with
      | tuple others =>
          rw [spelling_tuple, spelling_tuple] at h
          obtain ⟨-, hbody⟩ := List.cons.inj (List.append_cancel_right h)
          rw [eq_of_map_spelling elements others (map_spelling_of_spellings hbody)]
      | _ => exact nomatch hclosing
  | uint _, second, h | int _, second, h | bytes _, second, h | address, second, h
  | bool, second, h | dynBytes, second, h | string, second, h | function, second, h =>
      eq_of_spelling_of_names (by simp [name?])
        (closing?_eq_none_iff.mp (closing?_congr h).symm) h

theorem eq_of_map_spelling : (firsts seconds : List AbiType) →
    firsts.map spelling = seconds.map spelling → firsts = seconds
  | [], [], _ => rfl
  | [], _ :: _, h | _ :: _, [], h => nomatch h
  | first :: rest, second :: others, h => by
      obtain ⟨hfirst, hrest⟩ := List.cons.inj h
      rw [eq_of_spelling first second hfirst, eq_of_map_spelling rest others hrest]

end

end AbiType

namespace Interface

-- Whether a call of one is written like a call of the other: under the same name and with arguments
-- of the same types.
def CalledAlike (first second : Interface) : Prop :=
  first.name = second.name ∧
    first.arguments.map Argument.type = second.arguments.map Argument.type

instance (first second : Interface) : Decidable (first.CalledAlike second) :=
  inferInstanceAs (Decidable (_ ∧ _))

-- The first opening parenthesis of the signature is the one behind the name.
def HasPlainName (interface : Interface) : Prop := '(' ∉ interface.name.toList

instance (interface : Interface) : Decidable interface.HasPlainName :=
  inferInstanceAs (Decidable (¬_))

variable {first second : Interface}

theorem toList_signature (interface : Interface) : interface.signature.toList =
    interface.name.toList ++
      '(' :: (AbiType.spellings (interface.arguments.map Argument.type) ++ [')']) := by
  simp [signature]

theorem takeWhile_signature (h : first.HasPlainName) :
    first.signature.toList.takeWhile (· != '(') = first.name.toList := by
  have hname : ∀ char ∈ first.name.toList, (char != '(') = true := by
    intro char hchar
    rw [bne_iff_ne]
    rintro rfl
    exact h hchar
  rw [toList_signature, List.takeWhile_append_of_pos hname, List.takeWhile_cons_of_neg (by decide),
    List.append_nil]

theorem signature_eq_iff (hfirst : first.HasPlainName) (hsecond : second.HasPlainName) :
    first.signature = second.signature ↔ first.CalledAlike second := by
  constructor
  · intro h
    have hname : first.name = second.name := by
      rw [← String.toList_inj, ← takeWhile_signature hfirst, h, takeWhile_signature hsecond]
    have htext := congrArg String.toList h
    rw [toList_signature, toList_signature, hname] at htext
    obtain ⟨-, hbody⟩ := List.cons.inj (List.append_cancel_left htext)
    have htypes := AbiType.map_spelling_of_spellings (List.append_cancel_right hbody)
    exact ⟨hname, AbiType.eq_of_map_spelling _ _ htypes⟩
  · rintro ⟨hname, htypes⟩
    rw [signature, signature, hname, htypes]

theorem signature_beq (hfirst : first.HasPlainName) (hsecond : second.HasPlainName) :
    (first.signature == second.signature) = decide (first.CalledAlike second) := by
  rw [Bool.eq_iff_iff, beq_iff_eq, decide_eq_true_iff, signature_eq_iff hfirst hsecond]

end Interface

theorem Specification.behavioursOf_signature {specification : Specification} {interface : Interface}
    (hplain : interface.HasPlainName)
    (h : ∀ behaviour ∈ specification.behaviours, behaviour.interface.HasPlainName) :
    specification.behavioursOf interface.signature =
      specification.behaviours.filter fun behaviour => behaviour.interface.CalledAlike interface :=
  List.filter_congr fun behaviour hbehaviour =>
    Interface.signature_beq (h behaviour hbehaviour) hplain

namespace ContractSummary

-- The methods with a summary, in order.
def summarized (summary : ContractSummary) : List MethodSummary :=
  summary.runtime.filterMap fun entry => entry.2.toOption

theorem method?_signature {summary : ContractSummary} {interface : Interface}
    (hplain : interface.HasPlainName)
    (h : ∀ method ∈ summary.summarized, method.method.interface.HasPlainName) :
    summary.method? interface.signature =
      summary.summarized.find? fun method => method.method.interface.CalledAlike interface := by
  rw [method?, ← summarized, ← List.head?_filter, ← List.head?_filter]
  congr 1
  exact List.filter_congr fun method hmethod => Interface.signature_beq (h method hmethod) hplain

end ContractSummary

-- A signature stands for one name and one list of argument types, however large the sizes in these
-- are. So entry points are told apart as calls are, and what is looked up by the signature of a
-- method is what is called as that method is.
theorem signatures_identify_calls {first : Interface} (hfirst : first.HasPlainName) :
    (∀ second : Interface, second.HasPlainName →
      (first.signature = second.signature ↔
        first.name = second.name ∧
          first.arguments.map Argument.type = second.arguments.map Argument.type)) ∧
    (∀ method other : Method, method.interface = first → other.interface.HasPlainName →
      (EntryPoint.ofMethod method = EntryPoint.ofMethod other ↔
        first.CalledAlike other.interface)) ∧
    (∀ specification : Specification,
      (∀ behaviour ∈ specification.behaviours, behaviour.interface.HasPlainName) →
      specification.behavioursOf first.signature =
        specification.behaviours.filter fun behaviour => behaviour.interface.CalledAlike first) ∧
    ∀ summary : ContractSummary,
      (∀ method ∈ summary.summarized, method.method.interface.HasPlainName) →
      summary.method? first.signature =
        summary.summarized.find? fun method => method.method.interface.CalledAlike first := by
  refine ⟨fun second hsecond => Interface.signature_eq_iff hfirst hsecond, ?_,
    fun specification => Specification.behavioursOf_signature hfirst,
    fun summary => ContractSummary.method?_signature hfirst⟩
  rintro method other rfl hother
  rw [EntryPoint.ofMethod, EntryPoint.ofMethod, EntryPoint.method.injEq]
  exact Interface.signature_eq_iff hfirst hother

-- Two ways to swap, where the second one takes the parts of a pair as arguments of their own.
def swapPair : Interface :=
  ⟨"swap", [⟨"pair", .tuple [.uint 8, .array 2 (.dynArray .address)]⟩, ⟨"data", .dynBytes⟩]⟩

def swapParts : Interface :=
  ⟨"swap", [⟨"amount", .uint 8⟩, ⟨"paths", .array 2 (.dynArray .address)⟩, ⟨"data", .dynBytes⟩]⟩

def swapBehaviour (interface : Interface) : Spec.Behaviour :=
  ⟨"swap", "Exchange", interface, 0, [], [], none⟩

def exchangeSpecification : Specification where
  contract := "Exchange"
  storage := .empty
  constructor := ⟨"Exchange", .ofConstructor [], [], []⟩
  behaviours := [swapBehaviour swapPair, swapBehaviour swapParts]

def exchangeSummary : ContractSummary where
  name := "Exchange"
  layout := ⟨[]⟩
  constructor := .ofConstructor []
  creation := .ok []
  runtime := [swapPair, swapParts].map fun interface =>
    (.method interface.signature, .ok ⟨⟨interface, []⟩, []⟩)

theorem signatures_identify_calls_exchange :
    swapParts.HasPlainName ∧ swapPair.HasPlainName ∧
      swapParts.signature ≠ swapPair.signature ∧
      EntryPoint.ofMethod ⟨swapParts, []⟩ = EntryPoint.ofMethod ⟨swapParts, [.bool]⟩ ∧
      exchangeSpecification.behavioursOf swapParts.signature = [swapBehaviour swapParts] ∧
      (exchangeSummary.method? swapParts.signature).map MethodSummary.method =
        some ⟨swapParts, []⟩ := by
  have hparts : swapParts.HasPlainName := by decide
  have hpair : swapPair.HasPlainName := by decide
  obtain ⟨hsignatures, hentries, hbehaviours, hmethods⟩ := signatures_identify_calls hparts
  refine ⟨hparts, hpair, ?_, ?_, ?_, ?_⟩
  · rw [Ne, hsignatures swapPair hpair]
    decide
  · rw [hentries ⟨swapParts, []⟩ ⟨swapParts, [.bool]⟩ rfl hparts]
    decide
  · rw [hbehaviours exchangeSpecification (by decide)]
    decide
  · have hsummarized :
        ∀ method ∈ exchangeSummary.summarized, method.method.interface.HasPlainName := by
      simp [exchangeSummary, ContractSummary.summarized, Except.toOption, hparts, hpair]
    rw [hmethods exchangeSummary hsummarized]
    decide

end SpecRecovery
