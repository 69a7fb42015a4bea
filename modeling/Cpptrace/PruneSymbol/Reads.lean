import Cpptrace.PruneSymbol.Tokenizer

/-! What the calls on a tokenizer do when the rest of the source is known token
by token. -/

set_option autoImplicit false

namespace Cpptrace.PruneSymbol

open Library SymbolTokenizer

/-- What a template list leaves of `>>` is read as `>`. -/
def Splits (token : Token) (rest : Text) : Prop :=
  token = .punctuation ">>" → tokenAt ('>' :: rest) = .ok (.punctuation ">")

theorem Splits.of_ne {token : Token} {rest : Text} (other : token ≠ .punctuation ">>") : Splits token rest :=
  fun same => absurd same other

/-- Reading `source` to its end meets exactly these tokens and no error. -/
inductive Lexes : Text → List Token → Prop where
  | done {source : Text} (spaces : source.dropWhile isSpace = []) : Lexes source []
  | token {source rest : Text} {token : Token} {tokens : List Token}
      (nonempty : token.str ≠ []) (front : source.dropWhile isSpace = token.str ++ rest)
      (reads : tokenAt (token.str ++ rest) = .ok token) (splits : Splits token rest) (next : Lexes rest tokens) :
      Lexes source (token :: tokens)

theorem Lexes.length_le {source : Text} {tokens : List Token} (lexes : Lexes source tokens) :
    tokens.length ≤ source.length := by
  induction lexes with
  | done spaces => exact Nat.zero_le _
  | @token source rest token tokens nonempty front reads splits next ih =>
    have shorter := source.dropWhile_suffix isSpace |>.length_le
    have positive := List.length_pos_of_ne_nil nonempty
    rw [front, List.length_append] at shorter
    rw [List.length_cons]
    omega

def Cached (token : Token) (tokens : List Token) (tokenizer : SymbolTokenizer) : Prop :=
  ∃ rest, tokenizer = ⟨token.str ++ rest, some token⟩ ∧ Splits token rest ∧ Lexes rest tokens

inductive Reads : List Token → SymbolTokenizer → Prop where
  | unloaded {source : Text} {tokens : List Token} (lexes : Lexes source tokens) :
      Reads tokens ⟨source, none⟩
  | loaded {token : Token} {tokens : List Token} {tokenizer : SymbolTokenizer}
      (cached : Cached token tokens tokenizer) : Reads (token :: tokens) tokenizer

theorem maybeLoadNextToken_nil : Returns (Reads []) maybeLoadNextToken () (Reads []) := by
  intro tokenizer reads
  cases reads with
  | unloaded lexes =>
    cases lexes with
    | done spaces =>
      unfold maybeLoadNextToken
      simp only [Command.bind_apply, Command.get_apply, Command.modify_apply, Command.ite_apply,
        Command.pure_apply, spaces]
      exact ⟨rfl, .unloaded (.done rfl)⟩

theorem maybeLoadNextToken_cons (token : Token) (tokens : List Token) :
    Returns (Reads (token :: tokens)) maybeLoadNextToken () (Cached token tokens) := by
  intro tokenizer reads
  cases reads with
  | unloaded lexes =>
    cases lexes with
    | @token _ rest _ _ nonempty front reads splits next =>
      have goesOn : (token.str ++ rest).isEmpty = false := by simp [nonempty]
      unfold maybeLoadNextToken
      simp only [Command.bind_apply, Command.get_apply, Command.modify_apply, Command.ite_apply,
        Command.ofExcept_apply, front, goesOn, reads]
      exact ⟨rfl, rest, rfl, splits, next⟩
  | loaded cached =>
    obtain ⟨rest, rfl, follows⟩ := cached
    exact ⟨rfl, rest, rfl, follows⟩

@[simp] theorem adjusted_false (token : Token) : adjusted false token = token := rfl

section Calls

variable (token : Token) (tokens : List Token) (inTemplateArgumentList : Bool)

theorem peek_nil : Returns (Reads []) (peek inTemplateArgumentList) none (Reads []) := by
  apply maybeLoadNextToken_nil.bind
  intro tokenizer reads
  cases reads with
  | unloaded lexes => exact ⟨rfl, .unloaded lexes⟩

theorem peek_cached : Returns (Reads (token :: tokens)) (peek inTemplateArgumentList)
    (some (adjusted inTemplateArgumentList token)) (Cached token tokens) := by
  apply (maybeLoadNextToken_cons token tokens).bind
  rintro tokenizer ⟨rest, rfl, follows⟩
  exact ⟨rfl, rest, rfl, follows⟩

theorem peek_cons : Returns (Reads (token :: tokens)) (peek inTemplateArgumentList)
    (some (adjusted inTemplateArgumentList token)) (Reads (token :: tokens)) :=
  (peek_cached token tokens inTemplateArgumentList).weaken (fun _ reads => reads)
    fun _ cached => .loaded cached

theorem advance_nil : Returns (Reads []) (advance inTemplateArgumentList) none (Reads []) :=
  (peek_nil inTemplateArgumentList).bind (.pure _ none)

theorem advance_cons (whole : adjusted inTemplateArgumentList token = token) :
    Returns (Reads (token :: tokens)) (advance inTemplateArgumentList) (some token) (Reads tokens) := by
  apply (peek_cached token tokens inTemplateArgumentList).bind
  rw [whole]
  have consumed : Returns (Cached token tokens)
      (modify fun tokenizer => ⟨tokenizer.source.drop token.str.length, none⟩ : Tokenize Unit) ()
      (Reads tokens) := by
    apply Returns.modify
    rintro tokenizer ⟨rest, rfl, -, lexes⟩
    rw [List.drop_left]
    exact .unloaded lexes
  exact consumed.bind (.pure _ _)

theorem advance_shift : Returns (Reads (.punctuation ">>" :: tokens)) (advance true) (some (.punctuation ">"))
    (Reads (.punctuation ">" :: tokens)) := by
  apply (peek_cached (.punctuation ">>") tokens true).bind
  have consumed : Returns (Cached (.punctuation ">>") tokens)
      (modify fun tokenizer => ⟨tokenizer.source.drop 1, none⟩ : Tokenize Unit) ()
      (Reads (.punctuation ">" :: tokens)) := by
    apply Returns.modify
    rintro tokenizer ⟨rest, rfl, splits, lexes⟩
    exact .unloaded (.token (by decide) rfl (splits rfl) (.of_ne (by decide)) lexes)
  exact consumed.bind (.pure _ _)

theorem acceptWhen_found (wanted : Token → Bool) (found : wanted token = true) :
    Returns (Reads (token :: tokens)) (acceptWhen wanted false) (some token) (Reads tokens) := by
  apply (peek_cons token tokens false).bind
  simp only [adjusted_false, found, if_true]
  exact (advance_cons token tokens false rfl).dropResult.bind (.pure _ _)

/-- Nothing is consumed when the next token, if there is one, is not wanted. -/
theorem acceptWhen_missed (wanted : Token → Bool) (missed : ∀ next ∈ tokens.head?, wanted next = false) :
    Returns (Reads tokens) (acceptWhen wanted false) none (Reads tokens) := by
  cases tokens with
  | nil => exact (peek_nil false).bind (.pure _ none)
  | cons next tokens =>
    apply (peek_cons next tokens false).bind
    simp only [adjusted_false, missed next rfl]
    exact .pure _ none

end Calls

end Cpptrace.PruneSymbol
