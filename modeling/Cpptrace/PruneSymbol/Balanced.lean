import Cpptrace.PruneSymbol.Steps

/-! Lists in brackets.

A list in parentheses, square brackets or braces only counts its own brackets. A
template list counts angle brackets, reads `>>` as two of them, and takes a list in
other brackets as a whole, so that `<` and `>` in parentheses do not count. A list
is given by the tokens behind its opening bracket, up to the one that closes it.
-/

set_option autoImplicit false

namespace Cpptrace.PruneSymbol

open Library SymbolTokenizer

inductive Parenthesized (plain : Token → Prop) : List Token → Prop where
  | nil : Parenthesized plain []
  | plain {token : Token} {rest : List Token} (is : plain token) (next : Parenthesized plain rest) :
      Parenthesized plain (token :: rest)
  | nested {inner rest : List Token} (within : Parenthesized plain inner)
      (next : Parenthesized plain rest) :
      Parenthesized plain (.punctuation "(" :: inner ++ .punctuation ")" :: rest)

inductive Angled (plain inParentheses : Token → Prop) : List Token → Prop where
  | nil : Angled plain inParentheses []
  | plain {token : Token} {rest : List Token} (is : plain token)
      (next : Angled plain inParentheses rest) : Angled plain inParentheses (token :: rest)
  | nested {inner rest : List Token} (within : Angled plain inParentheses inner)
      (next : Angled plain inParentheses rest) :
      Angled plain inParentheses (.punctuation "<" :: inner ++ .punctuation ">" :: rest)
  | parenthesized {inner rest : List Token} (within : Parenthesized inParentheses inner)
      (next : Angled plain inParentheses rest) :
      Angled plain inParentheses (.punctuation "(" :: inner ++ .punctuation ")" :: rest)

inductive Brackets where
  | parentheses
  | square
  | braces

namespace Brackets

def opening : Brackets → String
  | parentheses => "("
  | square => "["
  | braces => "\x7b"

def closing : Brackets → String
  | parentheses => ")"
  | square => "]"
  | braces => "\x7d"

theorem getCorrespondingPunctuation_opening (brackets : Brackets) :
    getCorrespondingPunctuation brackets.opening.toList = .ok brackets.closing.toList := by
  cases brackets <;> rfl

theorem isOpeningPunctuation_opening (brackets : Brackets) :
    isOpeningPunctuation brackets.opening.toList = true := by
  cases brackets <;> decide

theorem opening_ne_closing (brackets : Brackets) : brackets.opening.toList ≠ brackets.closing.toList := by
  cases brackets <;> decide

/-- A template list does not take the bracket for one of its own. -/
theorem opening_ne_angle (brackets : Brackets) :
    brackets.opening.toList ≠ "<".toList ∧ brackets.opening.toList ≠ ">".toList := by
  cases brackets <;> decide

end Brackets

inductive Closes (brackets : Brackets) : Nat → List Token → Prop where
  | done : Closes brackets 0 []
  | other {depth : Nat} {token : Token} {rest : List Token} (notOpening : token ≠ .punctuation brackets.opening)
      (notClosing : token ≠ .punctuation brackets.closing) (next : Closes brackets (depth + 1) rest) :
      Closes brackets (depth + 1) (token :: rest)
  | opening {depth : Nat} {rest : List Token} (next : Closes brackets (depth + 2) rest) :
      Closes brackets (depth + 1) (.punctuation brackets.opening :: rest)
  | closing {depth : Nat} {rest : List Token} (next : Closes brackets depth rest) :
      Closes brackets (depth + 1) (.punctuation brackets.closing :: rest)

/-- The depth after one more token of a list, when no list of its own starts with it. -/
def depthAfter (opening closing : Text) (token : Token) (depth : Nat) : Nat :=
  if token.type ≠ .punctuation then depth
  else if token.str = opening then depth + 1
  else if token.str = closing then depth - 1
  else depth

def CountedInTemplate (token : Token) : Prop :=
  token ≠ .identifier "operator".toList ∧ token ≠ .punctuation ">>" ∧
    (token.type = .punctuation → isOpeningPunctuation token.str = true → token.str = "<".toList)

instance (token : Token) : Decidable (CountedInTemplate token) :=
  inferInstanceAs (Decidable (_ ∧ _ ∧ (_ → _ → _)))

inductive ClosesTemplate : Nat → List Token → Prop where
  | done : ClosesTemplate 0 []
  | other {depth : Nat} {token : Token} {rest : List Token} (counted : CountedInTemplate token)
      (notOpening : token ≠ .punctuation "<") (notClosing : token ≠ .punctuation ">")
      (next : ClosesTemplate (depth + 1) rest) : ClosesTemplate (depth + 1) (token :: rest)
  | opening {depth : Nat} {rest : List Token} (next : ClosesTemplate (depth + 2) rest) :
      ClosesTemplate (depth + 1) (.punctuation "<" :: rest)
  | closing {depth : Nat} {rest : List Token} (next : ClosesTemplate depth rest) :
      ClosesTemplate (depth + 1) (.punctuation ">" :: rest)
  | shift {depth : Nat} {rest : List Token} (next : ClosesTemplate depth rest) :
      ClosesTemplate (depth + 2) (.punctuation ">>" :: rest)
  | list {depth : Nat} {inner rest : List Token} (brackets : Brackets) (within : Closes brackets 1 inner)
      (next : ClosesTemplate (depth + 1) rest) :
      ClosesTemplate (depth + 1) (.punctuation brackets.opening :: (inner ++ rest))

theorem depthAfter_same (opening closing : String) (token : Token) (depth : Nat)
    (notOpening : token ≠ .punctuation opening) (notClosing : token ≠ .punctuation closing) :
    depthAfter opening.toList closing.toList token depth = depth := by
  obtain ⟨type, str⟩ := token
  simp only [Token.punctuation, ne_eq, Token.mk.injEq, not_and] at notOpening notClosing
  unfold depthAfter
  split_ifs with kind opens closes
  · rfl
  · exact absurd opens (notOpening (not_not.mp kind))
  · exact absurd closes (notClosing (not_not.mp kind))
  · rfl

theorem depthAfter_opening (opening : String) (closing : Text) (depth : Nat) :
    depthAfter opening.toList closing (.punctuation opening) depth = depth + 1 := by
  simp [depthAfter, Token.punctuation]

theorem depthAfter_closing {opening : Text} {closing : String} (differ : opening ≠ closing.toList) (depth : Nat) :
    depthAfter opening closing.toList (.punctuation closing) (depth + 1) = depth := by
  simp [depthAfter, Token.punctuation, differ.symm]

variable {tokens rest : List Token} {output : Output} {after : SymbolParser → Prop}

section Step

variable (token : Token) (depth fuel : Nat)

theorem consumeBalancedWithin_done (opening closing : Text) :
    Returns (At tokens output) (consumeBalancedWithin (fuel + 1) opening closing 0) true
      (At tokens output) := by
  rw [consumeBalancedWithin]
  exact .pure _ true

theorem consumeBalancedWithin_token (brackets : Brackets)
    (next : Returns (At tokens output)
      (consumeBalancedWithin fuel brackets.opening.toList brackets.closing.toList
        (depthAfter brackets.opening.toList brackets.closing.toList token (depth + 1))) true after) :
    Returns (At (token :: tokens) output)
      (consumeBalancedWithin (fuel + 1) brackets.opening.toList brackets.closing.toList (depth + 1)) true after := by
  rw [consumeBalancedWithin, if_neg (Nat.succ_ne_zero depth)]
  have list : (brackets.opening.toList = "<".toList) = False := eq_false brackets.opening_ne_angle.1
  simp only [list, if_false, pure_bind, decide_false, Bool.false_eq_true, Bool.false_and]
  apply (At.onTokenizer (advance_cons token tokens false rfl)).bind
  simp only
  unfold depthAfter at next
  split_ifs at next ⊢ <;> exact next

theorem consumeBalancedWithin_template (counted : CountedInTemplate token)
    (next : Returns (At tokens output)
      (consumeBalancedWithin (fuel + 1) "<".toList ">".toList
        (depthAfter "<".toList ">".toList token (depth + 1))) true after) :
    Returns (At (token :: tokens) output)
      (consumeBalancedWithin (fuel + 2) "<".toList ">".toList (depth + 1)) true after := by
  obtain ⟨name, shift, opening⟩ := counted
  rw [consumeBalancedWithin, if_neg (Nat.succ_ne_zero depth)]
  simp only [if_true, decide_true, Bool.true_and]
  apply (acceptOperator_missed fuel true (by simpa using name)).bind
  have whole : adjusted true token = token := if_neg (by simpa using shift)
  simp only [Bool.false_eq_true, if_false]
  apply (At.onTokenizer (advance_cons token tokens true whole)).bind
  simp only
  unfold depthAfter at next
  have nested (kind : ¬ token.type ≠ .punctuation) (other : ¬ token.str = "<".toList) :
      isOpeningPunctuation token.str = false :=
    Bool.eq_false_iff.mpr fun opens => other (opening (not_not.mp kind) opens)
  by_cases kind : token.type ≠ .punctuation
  · rw [if_pos kind] at next ⊢
    exact next
  rw [if_neg kind] at next ⊢
  by_cases same : token.str = "<".toList
  · rw [if_pos same] at next ⊢
    exact next
  rw [if_neg same] at next ⊢
  rw [nested kind same, if_neg Bool.false_ne_true]
  split_ifs at next ⊢ <;> exact next

/-- A template list takes the first bracket of `>>` and meets the second one next. -/
theorem consumeBalancedWithin_shift
    (next : Returns (At (.punctuation ">" :: tokens) output)
      (consumeBalancedWithin (fuel + 1) "<".toList ">".toList (depth + 1)) true after) :
    Returns (At (.punctuation ">>" :: tokens) output)
      (consumeBalancedWithin (fuel + 2) "<".toList ">".toList (depth + 2)) true after := by
  rw [consumeBalancedWithin, if_neg (Nat.succ_ne_zero (depth + 1))]
  simp only [if_true, decide_true, Bool.true_and]
  apply (acceptOperator_missed fuel true (by simp [Token.punctuation, Token.identifier])).bind
  simp only [Bool.false_eq_true, if_false]
  apply (At.onTokenizer (advance_shift tokens)).bind
  exact next

theorem consumeBalancedWithin_ownList (brackets : Brackets)
    (inner : Returns (At tokens output) (consumeBalanced (fuel + 1) brackets.opening.toList) true (At rest output))
    (next : Returns (At rest output)
      (consumeBalancedWithin (fuel + 1) "<".toList ">".toList (depth + 1)) true after) :
    Returns (At (.punctuation brackets.opening :: tokens) output)
      (consumeBalancedWithin (fuel + 2) "<".toList ">".toList (depth + 1)) true after := by
  have whole : adjusted true (.punctuation brackets.opening) = .punctuation brackets.opening := by
    cases brackets <;> rfl
  have kind : (Token.punctuation brackets.opening).type = .punctuation := rfl
  have str : (Token.punctuation brackets.opening).str = brackets.opening.toList := rfl
  rw [consumeBalancedWithin, if_neg (Nat.succ_ne_zero depth)]
  simp only [if_true, decide_true, Bool.true_and]
  apply (acceptOperator_missed fuel true (by simp [Token.punctuation, Token.identifier])).bind
  simp only [Bool.false_eq_true, if_false]
  apply (At.onTokenizer (advance_cons (.punctuation brackets.opening) tokens true whole)).bind
  simp only [kind, str, ne_eq, not_true_eq_false, if_false, brackets.opening_ne_angle,
    brackets.isOpeningPunctuation_opening, if_true]
  exact inner.discard.bind next

end Step

theorem consumeBalancedWithin_closes {brackets : Brackets} {depth : Nat} (list : Closes brackets depth tokens)
    (rest : List Token) (output : Output) (fuel : Nat) (enough : tokens.length < fuel) :
    Returns (At (tokens ++ rest) output)
      (consumeBalancedWithin fuel brackets.opening.toList brackets.closing.toList depth) true (At rest output) := by
  induction list generalizing fuel with
  | done =>
    cases fuel with
    | zero => cases enough
    | succ fuel => exact consumeBalancedWithin_done fuel _ _
  | @other depth token tokens notOpening notClosing next ih =>
    cases fuel with
    | zero => cases enough
    | succ fuel =>
      apply consumeBalancedWithin_token
      rw [depthAfter_same _ _ token _ notOpening notClosing]
      exact ih fuel (by simpa using enough)
  | opening next ih =>
    cases fuel with
    | zero => cases enough
    | succ fuel =>
      apply consumeBalancedWithin_token
      rw [depthAfter_opening]
      exact ih fuel (by simpa using enough)
  | closing next ih =>
    cases fuel with
    | zero => cases enough
    | succ fuel =>
      apply consumeBalancedWithin_token
      rw [depthAfter_closing brackets.opening_ne_closing]
      exact ih fuel (by simpa using enough)

theorem consumeBalanced_closes {brackets : Brackets} (list : Closes brackets 1 tokens) (rest : List Token)
    (output : Output) (fuel : Nat) (enough : tokens.length + 2 ≤ fuel) :
    Returns (At (tokens ++ rest) output) (consumeBalanced fuel brackets.opening.toList) true (At rest output) := by
  cases fuel with
  | zero => omega
  | succ fuel =>
    rw [consumeBalanced, brackets.getCorrespondingPunctuation_opening]
    have closing : Returns (At (tokens ++ rest) output)
        (MonadExcept.ofExcept (.ok brackets.closing.toList) : Parse Text) brackets.closing.toList
        (At (tokens ++ rest) output) := .pure _ _
    exact closing.bind (consumeBalancedWithin_closes list rest output fuel (by omega))

/-- Each token leaves two units: one for the operator that is looked for before it,
one for the list that may start there. `>>` takes two turns. -/
theorem consumeBalancedWithin_closesTemplate {depth : Nat} (list : ClosesTemplate depth tokens) (rest : List Token)
    (output : Output) (fuel : Nat) (enough : 2 * tokens.length + 2 ≤ fuel) :
    Returns (At (tokens ++ rest) output) (consumeBalancedWithin fuel "<".toList ">".toList depth) true
      (At rest output) := by
  induction list generalizing fuel with
  | done =>
    match fuel, enough with
    | fuel + 2, _ => exact consumeBalancedWithin_done (fuel + 1) _ _
  | @other depth token tokens counted notOpening notClosing next ih =>
    rw [List.length_cons] at enough
    match fuel, enough with
    | fuel + 2, enough =>
      apply consumeBalancedWithin_template _ _ _ counted
      rw [depthAfter_same "<" ">" token _ notOpening notClosing]
      exact ih (fuel + 1) (by omega)
  | @opening depth tokens next ih =>
    rw [List.length_cons] at enough
    match fuel, enough with
    | fuel + 2, enough =>
      apply consumeBalancedWithin_template _ _ _ (by decide)
      exact ih (fuel + 1) (by omega)
  | @closing depth tokens next ih =>
    rw [List.length_cons] at enough
    match fuel, enough with
    | fuel + 2, enough =>
      apply consumeBalancedWithin_template _ _ _ (by decide)
      exact ih (fuel + 1) (by omega)
  | @shift depth tokens next ih =>
    rw [List.length_cons] at enough
    match fuel, enough with
    | fuel + 3, enough =>
      apply consumeBalancedWithin_shift
      apply consumeBalancedWithin_template _ _ _ (by decide)
      exact ih (fuel + 1) (by omega)
  | @list depth inner tokens brackets within next ih =>
    rw [List.length_cons, List.length_append] at enough
    match fuel, enough with
    | fuel + 2, enough =>
      rw [List.cons_append, List.append_assoc]
      apply consumeBalancedWithin_ownList
      · exact consumeBalanced_closes within _ output (fuel + 1) (by omega)
      · exact ih (fuel + 1) (by omega)

theorem consumeBalanced_closesTemplate (list : ClosesTemplate 1 tokens) (rest : List Token) (output : Output)
    (fuel : Nat) (enough : 2 * tokens.length + 3 ≤ fuel) :
    Returns (At (tokens ++ rest) output) (consumeBalanced fuel "<".toList) true (At rest output) := by
  cases fuel with
  | zero => omega
  | succ fuel =>
    rw [consumeBalanced]
    have closing : Returns (At (tokens ++ rest) output)
        (MonadExcept.ofExcept (getCorrespondingPunctuation "<".toList) : Parse Text) ">".toList
        (At (tokens ++ rest) output) := .pure _ _
    exact closing.bind (consumeBalancedWithin_closesTemplate list rest output fuel (by omega))

inductive Bracketed : List Token → Prop where
  | template {tokens : List Token} (list : ClosesTemplate 1 tokens) : Bracketed (.punctuation "<" :: tokens)
  | own {tokens : List Token} (brackets : Brackets) (list : Closes brackets 1 tokens) :
      Bracketed (.punctuation brackets.opening :: tokens)

theorem acceptBalancedPunctuation_found (rest : List Token) (output : Output) (bracketed : Bracketed tokens)
    (fuel : Nat) (enough : 2 * tokens.length + 2 ≤ fuel) :
    Returns (At (tokens ++ rest) output) (acceptBalancedPunctuation fuel) true (At rest output) := by
  cases fuel with
  | zero => omega
  | succ fuel =>
    rw [acceptBalancedPunctuation]
    apply At.peek.bind
    cases bracketed with
    | template list =>
      rw [List.length_cons] at enough
      have balanced := consumeBalanced_closesTemplate list rest output fuel (by omega)
      exact (At.advance _).bind (balanced.discard.bind (.pure _ true))
    | own brackets list =>
      rw [List.length_cons] at enough
      have balanced := consumeBalanced_closes list rest output fuel (by omega)
      have opens : (decide ((Token.punctuation brackets.opening).type = .punctuation) &&
          isOpeningPunctuation (Token.punctuation brackets.opening).str) = true :=
        brackets.isOpeningPunctuation_opening
      simp only [List.cons_append, List.head?_cons, opens, if_true]
      exact (At.advance _).bind (balanced.discard.bind (.pure _ true))

theorem acceptBalancedPunctuation_missed (fuel : Nat)
    (missed : ∀ next ∈ tokens.head?, next.type = .punctuation → isOpeningPunctuation next.str = false) :
    Returns (At tokens output) (acceptBalancedPunctuation (fuel + 1)) false (At tokens output) := by
  rw [acceptBalancedPunctuation]
  apply At.peek.bind
  cases tokens with
  | nil => exact .pure _ false
  | cons next tokens =>
    have other : (decide (next.type = .punctuation) && isOpeningPunctuation next.str) = false := by
      by_cases kind : next.type = .punctuation
      · rw [missed next rfl kind, Bool.and_false]
      · rw [decide_eq_false kind, Bool.false_and]
    simp only [List.head?_cons, other, Bool.false_eq_true, if_false]
    exact .pure _ false

section Grammars

variable {plain inParentheses : Token → Prop} {depth : Nat}

def PlainInParentheses (plain : Token → Prop) : Prop :=
  ∀ token, plain token → token ≠ .punctuation "(" ∧ token ≠ .punctuation ")"

/-- No bracket among the plain tokens, and nothing that a template list reads in another way. -/
def PlainInTemplate (plain : Token → Prop) : Prop :=
  ∀ token, plain token →
    CountedInTemplate token ∧ token ≠ .punctuation "<" ∧ token ≠ .punctuation ">"

theorem Parenthesized.closes (isPlain : PlainInParentheses plain) (list : Parenthesized plain tokens)
    (next : Closes .parentheses (depth + 1) rest) : Closes .parentheses (depth + 1) (tokens ++ rest) := by
  induction list generalizing depth rest with
  | nil => exact next
  | @plain token tokens is _ ih => exact .other (isPlain token is).1 (isPlain token is).2 (ih next)
  | nested _ _ ihInner ihNext =>
    rw [List.cons_append, List.cons_append, List.append_assoc]
    exact .opening (ihInner (.closing (ihNext next)))

theorem Angled.closes (isPlain : PlainInTemplate plain) (inside : PlainInParentheses inParentheses)
    (list : Angled plain inParentheses tokens) (next : ClosesTemplate (depth + 1) rest) :
    ClosesTemplate (depth + 1) (tokens ++ rest) := by
  induction list generalizing depth rest with
  | nil => exact next
  | @plain token tokens is _ ih =>
    obtain ⟨counted, notOpening, notClosing⟩ := isPlain token is
    exact .other counted notOpening notClosing (ih next)
  | nested _ _ ihInner ihNext =>
    rw [List.cons_append, List.cons_append, List.append_assoc]
    exact .opening (ihInner (.closing (ihNext next)))
  | @parenthesized inner tokens within _ ih =>
    have list : Closes .parentheses 1 (inner ++ [.punctuation ")"]) := within.closes inside (.closing .done)
    have whole := ClosesTemplate.list .parentheses list (ih next)
    simpa [Brackets.opening] using whole

theorem Bracketed.angled (isPlain : PlainInTemplate plain) (inside : PlainInParentheses inParentheses)
    (list : Angled plain inParentheses tokens) : Bracketed (.punctuation "<" :: tokens ++ [.punctuation ">"]) :=
  .template (list.closes isPlain inside (.closing .done))

theorem Bracketed.parenthesized (isPlain : PlainInParentheses plain) (list : Parenthesized plain tokens) :
    Bracketed (.punctuation "(" :: tokens ++ [.punctuation ")"]) :=
  .own .parentheses (list.closes isPlain (.closing .done))

end Grammars

end Cpptrace.PruneSymbol
