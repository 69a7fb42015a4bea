import Cpptrace.PruneSymbol.Parser
import Cpptrace.PruneSymbol.Reads

/-! What the parser's small commands do when the tokens ahead are known. -/

set_option autoImplicit false

namespace Cpptrace.PruneSymbol

open Library SymbolTokenizer

def At (tokens : List Token) (output : Output) (parser : SymbolParser) : Prop :=
  Reads tokens parser.tokenizer ∧ parser.output = output

variable {tokens : List Token} {output : Output}

theorem At.onTokenizer {α : Type} {others : List Token} {command : Tokenize α} {value : α}
    (valid : Returns (Reads tokens) command value (Reads others)) :
    Returns (At tokens output) (onTokenizer command) value (At others output) := by
  apply valid.onPart
  · intro parser holds
    exact holds.1
  · intro parser tokenizer holds reads
    exact ⟨reads, holds.2⟩

theorem At.onOutput (change : Output → Output) :
    Returns (At tokens output) (onOutput change) () (At tokens (change output)) := by
  apply Returns.modify
  intro parser holds
  exact ⟨holds.1, congrArg change holds.2⟩

theorem At.append (token : Token) :
    Returns (At tokens output) (appendOutput token) () (At tokens (output.append token)) :=
  At.onOutput (·.append token)

theorem At.peek : Returns (At tokens output) (PruneSymbol.onTokenizer SymbolTokenizer.peek) tokens.head?
    (At tokens output) := by
  apply At.onTokenizer
  cases tokens with
  | nil => exact peek_nil false
  | cons token tokens => exact peek_cons token tokens false

theorem At.advance (token : Token) : Returns (At (token :: tokens) output)
    (dropResult (PruneSymbol.onTokenizer SymbolTokenizer.advance)) () (At tokens output) :=
  (At.onTokenizer (advance_cons token tokens false rfl)).dropResult

theorem At.accept (token : Token) : Returns (At (token :: tokens) output)
    (PruneSymbol.onTokenizer (SymbolTokenizer.accept token)) (some token) (At tokens output) :=
  At.onTokenizer (acceptWhen_found token tokens _ (decide_eq_true rfl))

theorem At.accept_missed (wanted : Token) (missed : tokens.head? ≠ some wanted) :
    Returns (At tokens output) (PruneSymbol.onTokenizer (SymbolTokenizer.accept wanted)) none
      (At tokens output) := by
  apply At.onTokenizer
  apply acceptWhen_missed
  intro next head
  apply decide_eq_false
  rintro rfl
  exact missed head

theorem At.acceptType (token : Token) : Returns (At (token :: tokens) output)
    (PruneSymbol.onTokenizer (SymbolTokenizer.acceptType token.type)) (some token) (At tokens output) :=
  At.onTokenizer (acceptWhen_found token tokens _ (decide_eq_true rfl))

theorem At.acceptType_missed (type : TokenType) (missed : ∀ next ∈ tokens.head?, next.type ≠ type) :
    Returns (At tokens output) (PruneSymbol.onTokenizer (SymbolTokenizer.acceptType type)) none
      (At tokens output) := by
  apply At.onTokenizer
  apply acceptWhen_missed
  intro next head
  exact decide_eq_false (missed next head)

theorem acceptIgnoredIdentifier_found (name : Text) (ignored : isIgnoredIdentifier name = true) :
    Returns (At (.identifier name :: tokens) output) acceptIgnoredIdentifier true
      (At tokens output) := by
  apply At.peek.bind
  simp only [List.head?_cons, Token.identifier, ignored, decide_true, Bool.and_self, if_true]
  exact (At.advance _).bind (.pure _ true)

theorem acceptIgnoredIdentifier_missed
    (missed : ∀ name, tokens.head? = some (.identifier name) → isIgnoredIdentifier name = false) :
    Returns (At tokens output) acceptIgnoredIdentifier false (At tokens output) := by
  apply At.peek.bind
  cases tokens with
  | nil => exact .pure _ false
  | cons token tokens =>
    obtain ⟨type, str⟩ := token
    have other : (decide (type = .identifier) && isIgnoredIdentifier str) = false := by
      cases type with
      | identifier => exact missed str rfl
      | punctuation | literal | anonymousNamespace => rfl
    simp only [List.head?_cons, other]
    exact .pure _ false

theorem acceptAnonymousNamespace_missed
    (missed : ∀ next ∈ tokens.head?, next.type ≠ .anonymousNamespace) :
    Returns (At tokens output) acceptAnonymousNamespace false (At tokens output) :=
  (At.acceptType_missed _ missed).bind (.pure _ false)

theorem acceptOperator_missed (fuel : Nat) (isInTemplateList : Bool)
    (missed : tokens.head? ≠ some (.identifier "operator".toList)) :
    Returns (At tokens output) (acceptOperator (fuel + 1) isInTemplateList) false
      (At tokens output) := by
  rw [acceptOperator]
  exact (At.accept_missed _ missed).bind (.pure _ false)

theorem acceptIdentifierToken_found (name : Text) :
    Returns (At (.identifier name :: tokens) output) acceptIdentifierToken true
      (At tokens (output.append (.identifier name))) := by
  apply (At.accept_missed (.punctuation "~") (by simp [Token.identifier, Token.punctuation])).bind
  apply (At.acceptType (.identifier name)).bind
  exact (At.append _).bind (.pure _ true)

/-- A run of signs is taken as a whole; the output has them only when they are appended. -/
theorem acceptPointerRef_signs (output : Output) (append : Bool) (signs rest : List Token)
    (are : ∀ sign ∈ signs, isPointerRef sign = true)
    (ends : ∀ next ∈ rest.head?, isPointerRef next = false) (fuel : Nat)
    (enough : signs.length < fuel) (matched : Bool) :
    Returns (At (signs ++ rest) output) (acceptPointerRef append fuel matched)
      (matched || !signs.isEmpty)
      (At rest (if append then signs.foldl Output.append output else output)) := by
  -- the output and the answer so far are general, since both grow with each sign
  induction signs generalizing fuel matched output with
  | nil =>
    cases fuel with
    | zero => cases enough
    | succ fuel =>
      have unchanged : (if append then [].foldl Output.append output else output) = output := by simp
      rw [unchanged, acceptPointerRef]
      apply At.peek.bind
      cases rest with
      | nil => simpa using Returns.pure _ matched
      | cons next rest =>
        simp only [List.nil_append, List.head?_cons, ends next rfl, List.isEmpty_nil, Bool.not_true,
          Bool.or_false]
        exact .pure _ matched
  | cons sign signs ih =>
    cases fuel with
    | zero => cases enough
    | succ fuel =>
      have next (output : Output) := ih output
        (fun other member => are other (by simp [member])) fuel (by simpa using enough) true
      rw [acceptPointerRef]
      apply At.peek.bind
      simp only [List.cons_append, List.head?_cons, are sign (by simp), if_true, List.isEmpty_cons,
        Bool.not_false, Bool.or_true]
      simp only [Bool.true_or] at next
      cases append with
      | true =>
        exact (At.append sign).bind ((At.advance sign).bind (next _))
      | false =>
        exact (At.advance sign).bind (next _)

def OpensNoPointer (token : Token) : Prop :=
  isPointerRef token = false ∧
    ∀ name, token = .identifier name → isMicrosoftCallingConvention name = false

theorem lookaheadSign_missed (fuel : Nat) (missed : ∀ next ∈ tokens.head?, OpensNoPointer next) :
    Returns (Reads tokens) (lookaheadSign (fuel + 1)) false fun _ => True := by
  rw [lookaheadSign]
  cases tokens with
  | nil => exact ((advance_nil false).bind (.pure _ false)).weaken (fun _ reads => reads) fun _ _ => trivial
  | cons next tokens =>
    obtain ⟨sign, name⟩ := missed next rfl
    apply (advance_cons next tokens false rfl).bind
    have other : (decide (next.type = .identifier) && isMicrosoftCallingConvention next.str) = false := by
      obtain ⟨type, str⟩ := next
      cases type with
      | identifier => exact name str rfl
      | punctuation | literal | anonymousNamespace => rfl
    simp only [sign, other]
    exact (Returns.pure _ false).weaken (fun _ reads => reads) fun _ _ => trivial

theorem lookaheadIsFunctionPointer_missed (fuel : Nat)
    (missed : ∀ next rest, tokens = .punctuation "(" :: next :: rest → OpensNoPointer next) :
    Returns (At tokens output) (lookaheadIsFunctionPointer (fuel + 1)) false (At tokens output) := by
  have ahead : Returns (Reads tokens) (functionPointerAhead (fuel + 1)) false fun _ => True := by
    by_cases opens : tokens.head? = some (.punctuation "(")
    · obtain ⟨rest, rfl⟩ := List.head?_eq_some_iff.mp opens
      apply (acceptWhen_found _ rest _ (decide_eq_true rfl)).bind
      apply lookaheadSign_missed
      intro next head
      obtain ⟨rest, rfl⟩ := List.head?_eq_some_iff.mp head
      exact missed next rest rfl
    · have none := acceptWhen_missed tokens (fun token => token = .punctuation "(") fun next head =>
        decide_eq_false fun same => opens (same ▸ head)
      exact (none.bind (.pure _ false)).weaken (fun _ reads => reads) fun _ _ => trivial
  rintro parser ⟨reads, rfl⟩
  have returned := (ahead parser.tokenizer reads).1
  unfold lookaheadIsFunctionPointer
  rw [Command.bind_apply, Command.get_apply]
  simp only [returned]
  exact ⟨rfl, reads, rfl⟩

end Cpptrace.PruneSymbol
