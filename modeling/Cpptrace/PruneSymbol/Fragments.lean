import Cpptrace.PruneSymbol.Balanced

/-! A fragment of a name: an identifier, the signs after it, and what trails. -/

set_option autoImplicit false

namespace Cpptrace.PruneSymbol

open Library SymbolTokenizer

inductive Trailing : List Token → Prop where
  | nil : Trailing []
  | bracketed {list rest : List Token} (is : Bracketed list) (next : Trailing rest) : Trailing (list ++ rest)
  | ignored {name : Text} {rest : List Token} (is : isIgnoredIdentifier name = true) (next : Trailing rest) :
      Trailing (.identifier name :: rest)
  | sign {token : Token} {rest : List Token} (is : isPointerRef token = true) (next : Trailing rest) :
      Trailing (token :: rest)

def Stops (next : Token) : Prop :=
  (next.type = .punctuation → isOpeningPunctuation next.str = false) ∧ isPointerRef next = false ∧
    ∀ name, next = .identifier name → isIgnoredIdentifier name = false

variable {tokens rest : List Token} {output : Output}

theorem isOpeningPunctuation_of_isPointerRef (token : Token) (sign : isPointerRef token = true) :
    isOpeningPunctuation token.str = false := by
  have signs : token.str = "*".toList ∨ token.str = "&".toList ∨ token.str = "&&".toList := by
    simpa [isPointerRef, or_assoc] using (Bool.and_eq_true_iff.mp sign).2
  obtain same | same | same := signs <;> rw [same] <;> decide

theorem type_of_isPointerRef (token : Token) (sign : isPointerRef token = true) :
    token.type = .punctuation :=
  of_decide_eq_true (Bool.and_eq_true_iff.mp sign).1

theorem Trailing.leadingSigns (trailing : Trailing tokens) :
    ∃ signs others, tokens = signs ++ others ∧ (∀ sign ∈ signs, isPointerRef sign = true) ∧
      Trailing others ∧ ∀ next ∈ others.head?, isPointerRef next = false := by
  induction trailing with
  | nil => exact ⟨[], [], rfl, by simp, .nil, by simp⟩
  | @bracketed list rest is next ih =>
    refine ⟨[], list ++ rest, rfl, by simp, .bracketed is next, ?_⟩
    cases is with
    | template list => simp [isPointerRef, Token.punctuation]
    | own brackets list => cases brackets <;> simp [isPointerRef, Token.punctuation, Brackets.opening]
  | @ignored name rest is next ih =>
    exact ⟨[], _, rfl, by simp, .ignored is next, by simp [isPointerRef, Token.identifier]⟩
  | @sign token rest is next ih =>
    obtain ⟨signs, others, rfl, are, trailing, ends⟩ := ih
    exact ⟨token :: signs, others, rfl, by simpa using ⟨is, are⟩, trailing, ends⟩

theorem consumePunctuationAndTrailingModifiers_stops (stops : ∀ next ∈ tokens.head?, Stops next)
    (fuel : Nat) (didConsume : Bool) :
    Returns (At tokens output) (consumePunctuationAndTrailingModifiers (fuel + 2) didConsume)
      didConsume (At tokens output) := by
  rw [consumePunctuationAndTrailingModifiers]
  apply At.peek.bind
  cases tokens with
  | nil => exact .pure _ didConsume
  | cons next tokens =>
    obtain ⟨opening, sign, name⟩ := stops next rfl
    apply (acceptBalancedPunctuation_missed fuel (by simpa using opening)).bind
    have ignored : ∀ word, (next :: tokens).head? = some (.identifier word) →
        isIgnoredIdentifier word = false := by simpa using name
    apply (acceptIgnoredIdentifier_missed ignored).bind
    have signs := acceptPointerRef_signs output false [] (next :: tokens) (by simp)
      (by simpa using sign) (fuel + 1) (by simp) false
    exact signs.bind (.pure _ didConsume)

section Turns

variable {after : SymbolParser → Prop} {result : Bool}

theorem consumePunctuationAndTrailingModifiers_bracketed {list : List Token} (is : Bracketed list)
    (fuel : Nat) (enough : 2 * list.length + 2 ≤ fuel) (didConsume : Bool)
    (continues : Returns (At tokens output) (consumePunctuationAndTrailingModifiers fuel true) result after) :
    Returns (At (list ++ tokens) output) (consumePunctuationAndTrailingModifiers (fuel + 1) didConsume)
      result after := by
  have found := acceptBalancedPunctuation_found tokens output is fuel enough
  have nonempty : list ≠ [] := by cases is <;> simp
  rw [consumePunctuationAndTrailingModifiers]
  apply At.peek.bind
  cases list with
  | nil => cases nonempty rfl
  | cons token list => exact found.bind continues

theorem consumePunctuationAndTrailingModifiers_ignored (name : Text) (is : isIgnoredIdentifier name = true)
    (fuel : Nat) (didConsume : Bool)
    (continues : Returns (At tokens output) (consumePunctuationAndTrailingModifiers (fuel + 1) true) result after) :
    Returns (At (.identifier name :: tokens) output)
      (consumePunctuationAndTrailingModifiers (fuel + 2) didConsume) result after := by
  rw [consumePunctuationAndTrailingModifiers]
  apply At.peek.bind
  apply (acceptBalancedPunctuation_missed fuel (by simp [Token.identifier])).bind
  exact (acceptIgnoredIdentifier_found name is).bind continues

theorem consumePunctuationAndTrailingModifiers_signs (token : Token) (signs : List Token)
    (are : ∀ sign ∈ token :: signs, isPointerRef sign = true)
    (ends : ∀ next ∈ tokens.head?, isPointerRef next = false) (fuel : Nat)
    (enough : (token :: signs).length ≤ fuel) (didConsume : Bool)
    (continues : Returns (At tokens output) (consumePunctuationAndTrailingModifiers (fuel + 1) true) result after) :
    Returns (At (token :: signs ++ tokens) output)
      (consumePunctuationAndTrailingModifiers (fuel + 2) didConsume) result after := by
  have is := are token List.mem_cons_self
  have opening := isOpeningPunctuation_of_isPointerRef token is
  have kind := type_of_isPointerRef token is
  have ignored : ∀ name, (token :: signs ++ tokens).head? = some (.identifier name) →
      isIgnoredIdentifier name = false := by
    intro name head
    cases head
    cases kind
  have run := acceptPointerRef_signs output false (token :: signs) tokens are ends (fuel + 1) (by omega) false
  rw [consumePunctuationAndTrailingModifiers]
  apply At.peek.bind
  apply (acceptBalancedPunctuation_missed fuel (by simpa using fun _ => opening)).bind
  exact (acceptIgnoredIdentifier_missed ignored).bind (run.bind continues)

end Turns

theorem consumePunctuationAndTrailingModifiers_trailing (output : Output)
    (trailing : Trailing tokens)
    (stops : ∀ next ∈ rest.head?, Stops next) (fuel : Nat) (enough : 2 * tokens.length + 3 ≤ fuel)
    (didConsume : Bool) :
    Returns (At (tokens ++ rest) output) (consumePunctuationAndTrailingModifiers fuel didConsume)
      (didConsume || !tokens.isEmpty) (At rest output) := by
  -- a run of signs is taken at once, so the induction is on the length
  induction size : tokens.length using Nat.strong_induction_on generalizing tokens fuel didConsume with
  | _ length ih =>
    subst size
    match fuel, enough with
    | fuel + 2, enough =>
      cases trailing with
      | nil =>
        simpa using consumePunctuationAndTrailingModifiers_stops stops fuel didConsume
      | @bracketed list tokens is next =>
        have nonempty : list ≠ [] := by cases is <;> simp
        have shorter := List.length_pos_of_ne_nil nonempty
        have filled : (list ++ tokens).isEmpty = false := by simp [nonempty]
        simp only [List.length_append] at enough ih
        have continues := ih tokens.length (by omega) next (fuel + 1) (by omega) true rfl
        rw [List.append_assoc]
        apply consumePunctuationAndTrailingModifiers_bracketed is (fuel + 1) (by omega)
        simpa [filled] using continues
      | @ignored name tokens is next =>
        simp only [List.length_cons] at enough ih
        have continues := ih tokens.length (by omega) next (fuel + 1) (by omega) true rfl
        apply consumePunctuationAndTrailingModifiers_ignored name is
        simpa using continues
      | @sign token tokens is next =>
        obtain ⟨signs, others, rfl, are, trailing, ends⟩ := next.leadingSigns
        simp only [List.length_cons, List.length_append] at enough ih
        have continues := ih others.length (by omega) trailing (fuel + 1) (by omega) true rfl
        have last : ∀ next ∈ (others ++ rest).head?, isPointerRef next = false := by
          cases others with
          | nil => exact fun next head => (stops next head).2.1
          | cons next others => exact ends
        rw [← List.cons_append, List.append_assoc]
        apply consumePunctuationAndTrailingModifiers_signs token signs (by simpa using ⟨is, are⟩) last fuel
          (by simp only [List.length_cons]; omega)
        simpa using continues

/-- The name is read by its own rule: it is no keyword of the parser. -/
theorem parseSymbolTerm_identifier (name : Text) (keyword : name ≠ "operator".toList) (fuel : Nat) :
    Returns (At (.identifier name :: tokens) output) (parseSymbolTerm (fuel + 2)) true
      (At tokens (output.append (.identifier name))) := by
  rw [parseSymbolTerm]
  apply (acceptAnonymousNamespace_missed (by simp [Token.identifier])).bind
  apply (acceptOperator_missed fuel false (by simpa [Token.identifier] using keyword)).bind
  exact (acceptIdentifierToken_found name).bind (.pure _ true)

theorem parseSymbolBase_identifier (name : Text) (keyword : name ≠ "operator".toList)
    (pointer : ∀ next rest, tokens = .punctuation "(" :: next :: rest → OpensNoPointer next)
    (fuel : Nat) :
    Returns (At (.identifier name :: tokens) output) (parseSymbolBase (fuel + 3)) true
      (At tokens (output.append (.identifier name))) := by
  rw [parseSymbolBase]
  apply (parseSymbolTerm_identifier name keyword fuel).bind
  exact (lookaheadIsFunctionPointer_missed (fuel + 1) pointer).bind (.pure _ true)

theorem acceptScopeResolution_missed (missed : tokens.head? ≠ some (.punctuation "::")) :
    Returns (At tokens output) acceptScopeResolution false (At tokens output) :=
  (At.accept_missed _ missed).bind (.pure _ false)

theorem acceptScopeResolution_found (member : tokens.head? ≠ some (.punctuation "*")) :
    Returns (At (.punctuation "::" :: tokens) output) acceptScopeResolution true
      (At tokens (output.append (.punctuation "::"))) := by
  apply (At.accept (.punctuation "::")).bind
  apply (At.append _).bind
  exact (At.accept_missed _ member).bind (.pure _ true)

/-- The lookahead sees the first parameter token, or the end of an empty list. -/
theorem opensNoPointer_inside (inner rest : List Token) (opens : ∀ next ∈ inner.head?, OpensNoPointer next) :
    ∀ next others, .punctuation "(" :: (inner ++ .punctuation ")" :: rest) = .punctuation "(" :: next :: others →
      OpensNoPointer next := by
  intro next others starts
  cases inner with
  | nil =>
    cases starts
    exact ⟨by decide, by simp [Token.punctuation, Token.identifier]⟩
  | cons token tokens =>
    cases starts
    exact opens next rfl

section Fragment

variable {name : Text} {trailing : List Token} {after : SymbolParser → Prop} {fuel : Nat}

/-- The signs right after the identifier go to the output; the rest of the fragment is dropped. -/
theorem parseSymbol_fragment (output : Output) (signs : List Token) (keyword : name ≠ "operator".toList)
    (areSigns : ∀ sign ∈ signs, isPointerRef sign = true)
    (trails : Trailing trailing)
    (pointer : ∀ next others, signs ++ (trailing ++ rest) = .punctuation "(" :: next :: others →
      OpensNoPointer next)
    (ends : ∀ next ∈ (trailing ++ rest).head?, isPointerRef next = false)
    (stops : ∀ next ∈ rest.head?, Stops next)
    (enough : signs.length + 2 * trailing.length + 3 ≤ fuel) (madeProgress : Bool)
    (next : Returns (At rest (signs.foldl Output.append (output.append (.identifier name))))
      (do if ← acceptScopeResolution then parseSymbol fuel true else return true) true after) :
    Returns (At (.identifier name :: (signs ++ (trailing ++ rest))) output)
      (parseSymbol (fuel + 1) madeProgress) true after := by
  match fuel, enough with
  | fuel + 3, enough =>
    rw [parseSymbol]
    apply At.peek.bind
    apply (parseSymbolBase_identifier name keyword pointer fuel).bind
    have run := acceptPointerRef_signs (output.append (.identifier name)) true signs
      (trailing ++ rest) areSigns ends (fuel + 3) (by omega) false
    have dropped := consumePunctuationAndTrailingModifiers_trailing
      (signs.foldl Output.append (output.append (.identifier name))) trails stops
      (fuel + 3) (by omega) false
    exact run.discard.bind (dropped.discard.bind next)

theorem parseSymbol_last (output : Output) (signs : List Token) (keyword : name ≠ "operator".toList)
    (areSigns : ∀ sign ∈ signs, isPointerRef sign = true)
    (trails : Trailing trailing)
    (pointer : ∀ next others, signs ++ (trailing ++ rest) = .punctuation "(" :: next :: others →
      OpensNoPointer next)
    (ends : ∀ next ∈ (trailing ++ rest).head?, isPointerRef next = false)
    (stops : ∀ next ∈ rest.head?, Stops next) (scope : rest.head? ≠ some (.punctuation "::"))
    (enough : signs.length + 2 * trailing.length + 4 ≤ fuel) (madeProgress : Bool) :
    Returns (At (.identifier name :: (signs ++ (trailing ++ rest))) output)
      (parseSymbol fuel madeProgress) true
      (At rest (signs.foldl Output.append (output.append (.identifier name)))) := by
  match fuel, enough with
  | fuel + 1, enough =>
    apply parseSymbol_fragment output signs keyword areSigns trails pointer ends stops (by omega)
    exact (acceptScopeResolution_missed scope).bind (.pure _ true)

theorem parseSymbol_scope (keyword : name ≠ "operator".toList)
    (trails : Trailing trailing)
    (template : ∀ next ∈ trailing.head?, next = .punctuation "<")
    (member : rest.head? ≠ some (.punctuation "*"))
    (enough : 2 * trailing.length + 4 ≤ fuel) (madeProgress : Bool)
    (next : ∀ shorter, fuel ≤ shorter + 1 → Returns
      (At rest ((output.append (.identifier name)).append (.punctuation "::")))
      (parseSymbol shorter true) true after) :
    Returns (At (.identifier name :: (trailing ++ .punctuation "::" :: rest)) output)
      (parseSymbol fuel madeProgress) true after := by
  match fuel, enough with
  | fuel + 1, enough =>
    -- what follows the identifier opens a template list or is the `::` itself
    have starts (token : Token) (head : token ∈ (trailing ++ .punctuation "::" :: rest).head?) :
        token = .punctuation "<" ∨ token = .punctuation "::" := by
      cases trailing with
      | nil =>
        cases head
        exact .inr rfl
      | cons first trailing => exact .inl (template token head)
    apply parseSymbol_fragment output [] keyword (by simp) trails _ _ _
      (by simpa using by omega)
    · exact (acceptScopeResolution_found member).bind (next fuel le_rfl)
    · intro token others text
      have head := starts (.punctuation "(") (by rw [List.nil_append] at text; simp [text])
      exact absurd head (by decide)
    · intro token head
      obtain rfl | rfl := starts token head <;> decide
    · intro token head
      cases head
      exact ⟨fun _ => by decide, by decide, by simp [Token.punctuation, Token.identifier]⟩

theorem parseSymbol_called {template tail : List Token} (output : Output) (keyword : name ≠ "operator".toList)
    (trails : Trailing (template ++ tail))
    (starts : ∀ next ∈ template.head?, next = .punctuation "<") (opens : tail.head? = some (.punctuation "("))
    (pointer : ∀ next others, tail ++ rest = .punctuation "(" :: next :: others → OpensNoPointer next)
    (stops : ∀ next ∈ rest.head?, Stops next) (scope : rest.head? ≠ some (.punctuation "::"))
    (enough : 2 * (template.length + tail.length) + 4 ≤ fuel) (madeProgress : Bool) :
    Returns (At (.identifier name :: (template ++ (tail ++ rest))) output) (parseSymbol fuel madeProgress) true
      (At rest (output.append (.identifier name))) := by
  obtain ⟨inner, rfl⟩ := List.head?_eq_some_iff.mp opens
  have bracket : ∀ next ∈ ((template ++ .punctuation "(" :: inner) ++ rest).head?,
      next = .punctuation "<" ∨ next = .punctuation "(" := by
    cases template with
    | nil => simp
    | cons token template => simpa using .inl (starts token rfl)
  -- a template list hides the parameter list from the lookahead; without one the first
  -- parameter token decides
  have ahead : ∀ next others, (template ++ .punctuation "(" :: inner) ++ rest =
      .punctuation "(" :: next :: others → OpensNoPointer next := by
    intro next others begins
    cases template with
    | nil => exact pointer next others begins
    | cons token template =>
      rw [starts token rfl] at begins
      cases begins
  have noSign : ∀ next ∈ ((template ++ .punctuation "(" :: inner) ++ rest).head?, isPointerRef next = false := by
    intro next head
    obtain rfl | rfl := bracket next head <;> decide
  have text : template ++ (.punctuation "(" :: inner ++ rest) =
      [] ++ ((template ++ .punctuation "(" :: inner) ++ rest) := by simp
  rw [text]
  apply parseSymbol_last output [] keyword (by simp) trails ahead noSign stops scope
  simpa using enough

end Fragment

section Segments

variable {Segment : Type} (name : Segment → Text) (template : Segment → List Token)

/-- The fragments of a name, with `::` between them. -/
def segmentTokens (first : Segment) (rest : List Segment) : List Token :=
  .identifier (name first) :: template first ++
    rest.flatMap fun segment => .punctuation "::" :: (.identifier (name segment) :: template segment)

def appendSegment (output : Output) (segment : Segment) : Output :=
  (output.append (.punctuation "::")).append (.identifier (name segment))

def segmentsOutput (output : Output) (first : Segment) (rest : List Segment) : Output :=
  rest.foldl (appendSegment name) (output.append (.identifier (name first)))

theorem foldl_appendSegment (text : Text) (rest : List Segment) :
    rest.foldl (appendSegment name) ⟨text, true, false⟩ =
      ⟨text ++ rest.flatMap fun segment => "::".toList ++ name segment, true, false⟩ := by
  induction rest generalizing text with
  | nil => simp
  | cons segment rest ih =>
    have step : appendSegment name ⟨text, true, false⟩ segment =
        ⟨text ++ "::".toList ++ name segment, true, false⟩ := by
      simp [appendSegment, Output.append, Token.punctuation, Token.identifier]
    rw [List.foldl_cons, step, ih]
    simp

theorem segmentsOutput_reset (output : Output) (first : Segment) (rest : List Segment) :
    segmentsOutput name output.reset first rest =
      ⟨name first ++ rest.flatMap fun segment => "::".toList ++ name segment, true, false⟩ :=
  foldl_appendSegment name (name first) rest

/-- A name up to its last fragment, which `last` takes together with what follows the name. How much
fuel the rest of the symbol takes is left open. -/
theorem parseSymbol_segments (keyword : ∀ segment, name segment ≠ "operator".toList)
    (trails : ∀ segment, Trailing (template segment))
    (starts : ∀ segment, ∀ next ∈ (template segment).head?, next = .punctuation "<")
    (tail : List Token) (spare : Nat) (after : Output → SymbolParser → Prop)
    (last : ∀ (segment : Segment) (output : Output) (fuel : Nat) (madeProgress : Bool),
      2 * (template segment).length + spare + 6 ≤ fuel →
        Returns (At (.identifier (name segment) :: template segment ++ tail) output)
          (parseSymbol fuel madeProgress) true (after (output.append (.identifier (name segment)))))
    (first : Segment) (rest : List Segment) (output : Output) (fuel : Nat) (madeProgress : Bool)
    (enough : 2 * (segmentTokens name template first rest).length + spare + 4 ≤ fuel) :
    Returns (At (segmentTokens name template first rest ++ tail) output) (parseSymbol fuel madeProgress)
      true (after (segmentsOutput name output first rest)) := by
  induction rest generalizing first output fuel madeProgress with
  | nil =>
    simp only [segmentTokens, List.flatMap_nil, List.append_nil, List.length_cons] at enough ⊢
    exact last first output fuel madeProgress (by omega)
  | cons segment rest ih =>
    have text : segmentTokens name template first (segment :: rest) ++ tail =
        .identifier (name first) :: (template first ++
          .punctuation "::" :: (segmentTokens name template segment rest ++ tail)) := by
      simp [segmentTokens]
    have size : (segmentTokens name template first (segment :: rest)).length =
        (template first).length + (segmentTokens name template segment rest).length + 2 := by
      simp [segmentTokens]
      omega
    rw [text]
    -- one fragment and its scope operator, then the rest with less fuel
    apply parseSymbol_scope (keyword first) (trails first) (starts first)
    · simp [segmentTokens, Token.identifier, Token.punctuation]
    · omega
    · intro shorter less
      exact ih segment _ shorter true (by omega)

end Segments

end Cpptrace.PruneSymbol
