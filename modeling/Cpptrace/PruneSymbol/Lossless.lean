import Cpptrace.PruneSymbol.Lexing
import Cpptrace.Library.Machine
import Mathlib.Data.List.DropRight
import Mathlib.Data.List.ReduceOption

/-! What any sequence of calls does to the source of a tokenizer.

Every call first loads the next token. What a call answers and leaves behind is
told by that token alone, and the token is at the front of the source.
-/

set_option autoImplicit false

namespace Cpptrace.PruneSymbol

open Library SymbolTokenizer

section Front

def AtFront (token : Token) (source : Text) : Prop := token.str ≠ [] ∧ token.str <+: source

theorem takeWhile_atFront (type : TokenType) (test : Char → Bool) (c : Char) (rest : Text) (starts : test c = true) :
    AtFront ⟨type, (c :: rest).takeWhile test⟩ (c :: rest) :=
  ⟨by simp [starts], List.takeWhile_prefix test⟩

theorem peekAnonymousNamespace_atFront {source : Text} {token : Token}
    (found : peekAnonymousNamespace source = some token) : AtFront token source := by
  obtain ⟨spelling, listed, rfl⟩ := Option.map_eq_some_iff.mp found
  have starts := (startsWith_iff source spelling).mp (List.find?_some listed)
  have known : ∀ spelling ∈ anonymousNamespaceSpellings, spelling ≠ [] := by decide
  rw [AtFront, ← List.prefix_iff_eq_take.mp starts]
  exact ⟨known spelling (List.mem_of_find?_eq_some listed), starts⟩

theorem peekPunctuation_atFront {source : Text} {token : Token} (found : peekPunctuation source = some token) :
    AtFront token source := by
  obtain ⟨punctuation, listed, rfl⟩ := Option.map_eq_some_iff.mp found
  have starts := (startsWith_iff source punctuation).mp (List.find?_some listed)
  have known : ∀ punctuation ∈ listedPunctuators, punctuation ≠ [] := by decide
  have member := (List.mem_insertionSort _).mp (List.mem_of_find?_eq_some listed)
  rw [AtFront, ← List.prefix_iff_eq_take.mp starts]
  exact ⟨known punctuation member, starts⟩

theorem peekNumber_atFront {source : Text} {token : Token} (found : peekNumber source = some token) :
    AtFront token source := by
  cases source with
  | nil => cases found
  | cons c rest =>
    obtain ⟨digit, rfl⟩ : c.isDigit = true ∧ _ = token := by simpa [peekNumber] using found
    exact takeWhile_atFront _ _ c rest (by simp [isNumberContinue, digit])

theorem peekIdentifier_atFront {source : Text} {token : Token} (found : peekIdentifier source = some token) :
    AtFront token source := by
  cases source with
  | nil => cases found
  | cons c rest =>
    obtain ⟨starts, rfl⟩ : isIdentifierStart c = true ∧ _ = token := by simpa [peekIdentifier] using found
    exact takeWhile_atFront _ _ c rest (by simp [isIdentifierContinue, starts])

theorem scanMsvcString_prefix (source str : Text) (depth : Nat) (scanned : scanMsvcString source depth = some str) :
    str ≠ [] ∧ str <+: source := by
  induction source generalizing depth str with
  | nil => cases scanned
  | cons c rest ih =>
    unfold scanMsvcString at scanned
    dsimp only at scanned
    generalize (if c = '`' then depth + 1 else if c = '\'' then depth - 1 else depth) = next at scanned
    by_cases closed : next = 0
    · rw [if_pos closed, Option.some.injEq] at scanned
      subst scanned
      exact ⟨by simp, by simp⟩
    · rw [if_neg closed] at scanned
      obtain ⟨tail, found, rfl⟩ := Option.map_eq_some_iff.mp scanned
      exact ⟨by simp, List.cons_prefix_cons.mpr ⟨rfl, (ih tail _ found).2⟩⟩

theorem peekMsvcString_atFront {source : Text} {token : Token} (found : peekMsvcString source = .ok (some token)) :
    AtFront token source := by
  cases source with
  | nil => cases found
  | cons c rest =>
    unfold peekMsvcString at found
    by_cases opens : c = '`'
    · simp only [if_pos opens] at found
      cases scanned : scanMsvcString (c :: rest) 0 with
      | none =>
        rw [scanned] at found
        exact absurd found (Outcome.throw_ne_ok _ _)
      | some str =>
        rw [scanned, Outcome.pure_eq_ok_iff, Option.some.injEq] at found
        subst found
        exact scanMsvcString_prefix _ str 0 scanned
    · simp only [if_neg opens, Outcome.pure_eq_ok_iff] at found
      cases found

theorem scanQuotedString_prefix (closingQuote : Char) (source str : Text)
    (scanned : scanQuotedString closingQuote source = .ok str) : str <+: source := by
  match source with
  | [] => exact absurd scanned (Outcome.throw_ne_ok _ _)
  | c :: rest =>
    unfold scanQuotedString at scanned
    by_cases closes : c = closingQuote
    · rw [if_pos closes, Outcome.pure_eq_ok_iff] at scanned
      subst scanned
      simp
    · rw [if_neg closes] at scanned
      by_cases escape : c = '\\'
      · rw [if_pos escape] at scanned
        match rest with
        | [] => exact absurd scanned (Outcome.throw_ne_ok _ _)
        | [_] => exact absurd scanned (Outcome.throw_ne_ok _ _)
        | escaped :: skipped :: rest =>
          obtain ⟨tail, found, same⟩ := (Outcome.bind_eq_ok_iff ..).mp scanned
          rw [Outcome.pure_eq_ok_iff] at same
          subst same
          have within := scanQuotedString_prefix closingQuote rest tail found
          simpa using within
      · rw [if_neg escape] at scanned
        obtain ⟨tail, found, same⟩ := (Outcome.bind_eq_ok_iff ..).mp scanned
        rw [Outcome.pure_eq_ok_iff] at same
        subst same
        exact List.cons_prefix_cons.mpr ⟨rfl, scanQuotedString_prefix closingQuote rest tail found⟩

theorem parseQuotedString_atFront {source : Text} {token : Token}
    (found : parseQuotedString source = .ok (some token)) : AtFront token source := by
  cases source with
  | nil => cases found
  | cons c rest =>
    unfold parseQuotedString at found
    by_cases opens : (c = '\'' || c = '"') = true
    · simp only [if_pos opens] at found
      obtain ⟨str, scanned, same⟩ := (Outcome.bind_eq_ok_iff ..).mp found
      rw [Outcome.pure_eq_ok_iff, Option.some.injEq] at same
      subst same
      exact ⟨by simp, List.cons_prefix_cons.mpr ⟨rfl, scanQuotedString_prefix c rest str scanned⟩⟩
    · simp only [if_neg opens, Outcome.pure_eq_ok_iff] at found
      cases found

theorem peekLiteral_atFront {source : Text} {token : Token} (found : peekLiteral source = .ok (some token)) :
    AtFront token source := by
  unfold peekLiteral at found
  cases number : peekNumber source with
  | some number' =>
    rw [number] at found
    obtain rfl := Option.some.inj ((Outcome.pure_eq_ok_iff ..).mp found)
    exact peekNumber_atFront number
  | none =>
    rw [number] at found
    obtain ⟨msvc, peeked, next⟩ := (Outcome.bind_eq_ok_iff ..).mp found
    cases msvc with
    | some msvcString =>
      obtain rfl := Option.some.inj ((Outcome.pure_eq_ok_iff ..).mp next)
      exact peekMsvcString_atFront peeked
    | none => exact parseQuotedString_atFront next

theorem tokenAt_atFront {source : Text} {token : Token} (found : tokenAt source = .ok token) :
    AtFront token source := by
  unfold tokenAt at found
  -- in the order in which the tokenizer tries them
  cases anon : peekAnonymousNamespace source with
  | some spelling =>
    rw [anon] at found
    obtain rfl := (Outcome.pure_eq_ok_iff ..).mp found
    exact peekAnonymousNamespace_atFront anon
  | none =>
    rw [anon] at found
    obtain ⟨literal, peeked, next⟩ := (Outcome.bind_eq_ok_iff ..).mp found
    cases literal with
    | some literal =>
      obtain rfl := (Outcome.pure_eq_ok_iff ..).mp next
      exact peekLiteral_atFront peeked
    | none =>
      dsimp only at next
      cases punctuation : peekPunctuation source with
      | some punctuator =>
        rw [punctuation] at next
        obtain rfl := (Outcome.pure_eq_ok_iff ..).mp next
        exact peekPunctuation_atFront punctuation
      | none =>
        rw [punctuation] at next
        dsimp only at next
        cases identifier : peekIdentifier source with
        | some name =>
          rw [identifier] at next
          obtain rfl := (Outcome.pure_eq_ok_iff ..).mp next
          exact peekIdentifier_atFront identifier
        | none =>
          rw [identifier] at next
          cases source with
          | nil => exact absurd next (Outcome.throw_ne_ok _ _)
          | cons c rest =>
            obtain rfl := (Outcome.pure_eq_ok_iff ..).mp next
            exact ⟨by simp, by simp⟩

end Front

namespace SymbolTokenizer

def stripped (tokenizer : SymbolTokenizer) : Text := tokenizer.source.dropWhile isSpace

def look (tokenizer : SymbolTokenizer) : Except Failure (Option Token) :=
  match tokenizer.nextToken with
  | some token => pure (some token)
  | none => if tokenizer.stripped = [] then pure none else some <$> tokenAt tokenizer.stripped

/-- The tokenizer once it has looked at the next token. -/
def loaded (tokenizer : SymbolTokenizer) : SymbolTokenizer :=
  match tokenizer.nextToken with
  | some _ => tokenizer
  | none => ⟨tokenizer.stripped, match tokenizer.look with | .ok token => token | .error _ => none⟩

section Looking

variable (tokenizer : SymbolTokenizer) (inTemplateArgumentList : Bool)

theorem maybeLoadNextToken_eq :
    maybeLoadNextToken tokenizer = ((fun _ => ()) <$> tokenizer.look, tokenizer.loaded) := by
  obtain ⟨source, nextToken⟩ := tokenizer
  unfold maybeLoadNextToken look loaded look stripped
  cases nextToken with
  | some token => rfl
  | none =>
    simp only [Command.bind_apply, Command.get_apply, Command.modify_apply, Command.ite_apply, Command.pure_apply,
      Command.ofExcept_apply, Option.isSome_none, Bool.false_eq_true, ↓reduceIte, List.isEmpty_iff]
    split
    next done => rw [done]; rfl
    next => cases tokenAt (source.dropWhile isSpace) <;> rfl

theorem loaded_nextToken :
    tokenizer.loaded.nextToken = match tokenizer.look with | .ok token => token | .error _ => none := by
  obtain ⟨source, nextToken⟩ := tokenizer
  cases nextToken <;> rfl

theorem stripped_loaded : tokenizer.loaded.stripped = tokenizer.stripped := by
  obtain ⟨source, nextToken⟩ := tokenizer
  cases nextToken with
  | some token => rfl
  | none => exact List.dropWhile_idempotent _ _

theorem look_loaded : tokenizer.loaded.look = tokenizer.look := by
  obtain ⟨source, nextToken⟩ := tokenizer
  cases nextToken with
  | some token => rfl
  | none =>
    have same := stripped_loaded ⟨source, none⟩
    have next := loaded_nextToken ⟨source, none⟩
    cases found : look ⟨source, none⟩ with
    | error failure =>
      rw [found] at next
      rw [look, next, same]
      exact found
    | ok token =>
      rw [found] at next
      cases token with
      | some token => rw [look, next]; rfl
      | none =>
        rw [look, next, same]
        exact found

theorem loaded_loaded : tokenizer.loaded.loaded = tokenizer.loaded := by
  obtain ⟨source, nextToken⟩ := tokenizer
  cases nextToken with
  | some token => rfl
  | none =>
    have same := look_loaded ⟨source, none⟩
    have front := stripped_loaded ⟨source, none⟩
    cases cached : (loaded ⟨source, none⟩).nextToken with
    | some token => rw [loaded, cached]
    | none =>
      rw [loaded, cached, front, same]
      rfl

theorem peek_eq :
    peek inTemplateArgumentList tokenizer =
      (Option.map (adjusted inTemplateArgumentList) <$> tokenizer.look, tokenizer.loaded) := by
  unfold peek getAdjustedNextToken
  simp only [Command.bind_apply, maybeLoadNextToken_eq, Command.get_apply, Command.pure_apply, loaded_nextToken]
  cases tokenizer.look <;> rfl

theorem advance_eq :
    advance inTemplateArgumentList tokenizer =
      match tokenizer.look with
      | .error failure => (.error failure, tokenizer.loaded)
      | .ok none => (.ok none, tokenizer.loaded)
      | .ok (some token) =>
          (.ok (some (adjusted inTemplateArgumentList token)),
            ⟨tokenizer.loaded.source.drop (adjusted inTemplateArgumentList token).str.length, none⟩) := by
  unfold advance
  rw [Command.bind_apply, peek_eq]
  cases tokenizer.look with
  | error failure => rfl
  | ok token => cases token <;> rfl

theorem acceptWhen_eq (wanted : Token → Bool) :
    acceptWhen wanted inTemplateArgumentList tokenizer =
      match tokenizer.look with
      | .error failure => (.error failure, tokenizer.loaded)
      | .ok none => (.ok none, tokenizer.loaded)
      | .ok (some token) =>
          if wanted (adjusted inTemplateArgumentList token) then
            (.ok (some (adjusted inTemplateArgumentList token)),
              ⟨tokenizer.loaded.source.drop token.str.length, none⟩)
          else (.ok none, tokenizer.loaded) := by
  unfold acceptWhen
  rw [Command.bind_apply, peek_eq]
  cases found : tokenizer.look with
  | error failure => rfl
  | ok token =>
    cases token with
    | none => rfl
    | some token =>
      have advanced := advance_eq tokenizer.loaded false
      rw [look_loaded, found] at advanced
      simp only [Functor.map, Except.map, Option.map_some, Command.ite_apply, Command.bind_apply, dropResult, advanced,
        Command.pure_apply, adjusted_false, loaded_loaded]

end Looking

end SymbolTokenizer

def Coherent (tokenizer : SymbolTokenizer) : Prop :=
  ∀ token, tokenizer.nextToken = some token → AtFront token tokenizer.source ∧ tokenizer.stripped = tokenizer.source

/-- The calls on a tokenizer, each with its flag for template argument lists. -/
inductive Call where
  | peek (inTemplateArgumentList : Bool)
  | advance (inTemplateArgumentList : Bool)
  | acceptType (type : TokenType) (inTemplateArgumentList : Bool)
  | accept (wanted : Token) (inTemplateArgumentList : Bool)
  deriving DecidableEq, Repr

abbrev Answer := Except Failure (Option Token)

namespace Call

def perform : Call → Tokenize (Option Token)
  | peek flag => SymbolTokenizer.peek flag
  | advance flag => SymbolTokenizer.advance flag
  | acceptType type flag => SymbolTokenizer.acceptType type flag
  | accept wanted flag => SymbolTokenizer.accept wanted flag

def isPeek : Call → Bool
  | peek _ => true
  | _ => false

def step (call : Call) (tokenizer : SymbolTokenizer) : Answer × SymbolTokenizer := call.perform tokenizer

def consumed : Call → Answer → Option Token
  | peek _, _ => none
  | _, .ok token => token
  | _, .error _ => none

/-- An accept that would hand out the first half of `>>`. -/
def acceptsHalf : Call → Bool
  | acceptType type flag => flag && type = .punctuation
  | accept wanted flag => flag && wanted = .punctuation ">"
  | _ => false

end Call

open Call

/-- What one call should do: a consumed token and the space before it are what is missing from the
source afterwards, and any other call drops nothing but space. -/
def Lossless (call : Call) (tokenizer : SymbolTokenizer) : Prop :=
  (step call tokenizer).1 ≠ .error .readPastEnd ∧
    match consumed call (step call tokenizer).1 with
    | some token => token.str ≠ [] ∧ tokenizer.stripped = token.str ++ (step call tokenizer).2.source
    | none => ∃ spaces, spaces.all isSpace = true ∧ tokenizer.source = spaces ++ (step call tokenizer).2.source

/-- The next token can be read, and is not split by an accept. -/
def Sound (call : Call) (tokenizer : SymbolTokenizer) : Prop :=
  tokenizer.look ≠ .error .readPastEnd ∧
    ¬ (call.acceptsHalf = true ∧ tokenizer.look = .ok (some (.punctuation ">>")))

section Steps

variable {tokenizer : SymbolTokenizer}

theorem adjusted_eq (flag : Bool) (token : Token) :
    adjusted flag token = if flag = true ∧ token = .punctuation ">>" then .punctuation ">" else token := by
  unfold adjusted
  cases flag with
  | false => simp
  | true =>
    by_cases same : token = .punctuation ">>"
    · subst same
      rfl
    · simp [same]

theorem Coherent.loaded_source (coherent : Coherent tokenizer) : tokenizer.loaded.source = tokenizer.stripped := by
  obtain ⟨source, nextToken⟩ := tokenizer
  cases nextToken with
  | some token => exact (coherent token rfl).2.symm
  | none => rfl

theorem Coherent.look_atFront (coherent : Coherent tokenizer) {token : Token}
    (found : tokenizer.look = .ok (some token)) : AtFront token tokenizer.stripped := by
  obtain ⟨source, nextToken⟩ := tokenizer
  cases nextToken with
  | some cached =>
    obtain rfl := Option.some.inj ((Outcome.pure_eq_ok_iff ..).mp found)
    have front := coherent cached rfl
    rw [front.2]
    exact front.1
  | none =>
    unfold look at found
    dsimp only at found
    split at found
    · cases found
    · cases read : tokenAt (stripped ⟨source, none⟩) with
      | error failure => simp [read] at found
      | ok token =>
        rw [read] at found
        cases found
        exact tokenAt_atFront read

theorem Coherent.loaded (coherent : Coherent tokenizer) : Coherent tokenizer.loaded := by
  intro token cached
  rw [loaded_nextToken] at cached
  rw [stripped_loaded, coherent.loaded_source]
  cases found : tokenizer.look with
  | error failure => simp [found] at cached
  | ok next =>
    rw [found] at cached
    cases cached
    exact ⟨coherent.look_atFront found, rfl⟩

theorem coherent_unloaded (source : Text) : Coherent ⟨source, none⟩ := nofun

theorem Coherent.spaces (coherent : Coherent tokenizer) :
    ∃ spaces, spaces.all isSpace = true ∧ tokenizer.source = spaces ++ tokenizer.loaded.source := by
  refine ⟨tokenizer.source.takeWhile isSpace, List.all_takeWhile, ?_⟩
  rw [coherent.loaded_source]
  exact List.takeWhile_append_dropWhile.symm

theorem AtFront.adjusted {token : Token} {source : Text} (front : AtFront token source) (flag : Bool) :
    AtFront (adjusted flag token) source := by
  rw [adjusted_eq]
  split
  next half =>
    rw [half.2] at front
    exact ⟨by decide, (by decide : ">".toList <+: ">>".toList).trans front.2⟩
  next => exact front

theorem AtFront.split {token : Token} {source : Text} (front : AtFront token source) :
    source = token.str ++ source.drop token.str.length :=
  (List.prefix_iff_eq_append.mp front.2).symm

theorem lossless_of_error {call : Call} {failure : Failure} (coherent : Coherent tokenizer)
    (found : tokenizer.look = .error failure) : Lossless call tokenizer ↔ failure ≠ .readPastEnd := by
  have stepped : step call tokenizer = (.error failure, tokenizer.loaded) := by
    cases call
    all_goals simp only [step, perform, peek_eq, advance_eq, SymbolTokenizer.acceptType, SymbolTokenizer.accept,
      acceptWhen_eq, found]
    all_goals rfl
  have nothing : consumed call (.error failure) = none := by cases call <;> rfl
  rw [Lossless, stepped, nothing, and_iff_left coherent.spaces]
  simp

theorem lossless_of_none {call : Call} (coherent : Coherent tokenizer) (found : tokenizer.look = .ok none) :
    Lossless call tokenizer := by
  have stepped : step call tokenizer = (.ok none, tokenizer.loaded) := by
    cases call
    all_goals simp only [step, perform, peek_eq, advance_eq, SymbolTokenizer.acceptType, SymbolTokenizer.accept,
      acceptWhen_eq, found]
    all_goals rfl
  have nothing : consumed call (.ok none) = none := by cases call <;> rfl
  rw [Lossless, stepped, nothing]
  exact ⟨nofun, coherent.spaces⟩

/-- An accept consumes the cached token, whatever part of it it hands out. -/
theorem lossless_accept_iff {call : Call} {token : Token} {flag : Bool} {wanted : Token → Bool}
    (coherent : Coherent tokenizer) (found : tokenizer.look = .ok (some token))
    (performed : call.perform = acceptWhen wanted flag) (consumes : ∀ answer, consumed call (.ok answer) = answer) :
    Lossless call tokenizer ↔
      ¬ (wanted (.punctuation ">") = true ∧ flag = true ∧ token = .punctuation ">>") := by
  have front := coherent.look_atFront found
  have stepped : step call tokenizer =
      if wanted (adjusted flag token) then
        (.ok (some (adjusted flag token)), ⟨tokenizer.loaded.source.drop token.str.length, none⟩)
      else (.ok none, tokenizer.loaded) := by
    rw [step, performed, acceptWhen_eq, found]
  rw [Lossless, stepped]
  by_cases accepted : wanted (adjusted flag token) = true
  · rw [if_pos accepted, consumes, coherent.loaded_source]
    by_cases half : flag = true ∧ token = .punctuation ">>"
    · rw [adjusted_eq, if_pos half] at accepted ⊢
      refine iff_of_false (fun lossless => ?_) fun none => none ⟨accepted, half⟩
      -- one character is handed out, two are gone
      have lengths := congrArg List.length (front.split.symm.trans lossless.2.2)
      rw [half.2, List.length_append, List.length_append, Nat.add_right_cancel_iff] at lengths
      exact absurd lengths (by decide)
    · rw [adjusted_eq, if_neg half]
      simp only [half, and_false, not_false_eq_true, iff_true]
      exact ⟨nofun, front.1, front.split⟩
  · rw [if_neg accepted, consumes]
    refine iff_of_true ⟨nofun, coherent.spaces⟩ fun both => accepted ?_
    rw [adjusted_eq, if_pos both.2]
    exact both.1

theorem lossless_iff_sound (call : Call) (tokenizer : SymbolTokenizer) (coherent : Coherent tokenizer) :
    Lossless call tokenizer ↔ Sound call tokenizer := by
  unfold Sound
  cases found : tokenizer.look with
  | error failure => simp [lossless_of_error coherent found]
  | ok next =>
    cases next with
    | none => simp [lossless_of_none coherent found]
    | some token =>
      have front := coherent.look_atFront found
      -- a look or an advance is always right; the calls that may miss come down to one lemma
      cases call with
      | peek flag =>
        have stepped : step (.peek flag) tokenizer = (.ok (some (adjusted flag token)), tokenizer.loaded) := by
          rw [step, perform, peek_eq, found]
          rfl
        refine iff_of_true ?_ (by simp [acceptsHalf])
        rw [Lossless, stepped]
        exact ⟨nofun, coherent.spaces⟩
      | advance flag =>
        have stepped : step (.advance flag) tokenizer =
            (.ok (some (adjusted flag token)),
              ⟨tokenizer.loaded.source.drop (adjusted flag token).str.length, none⟩) := by
          rw [step, perform, advance_eq, found]
        refine iff_of_true ?_ (by simp [acceptsHalf])
        rw [Lossless, stepped, coherent.loaded_source]
        exact ⟨nofun, (front.adjusted flag).1, (front.adjusted flag).split⟩
      | acceptType type flag =>
        rw [lossless_accept_iff coherent found rfl fun _ => rfl]
        grind [acceptsHalf, Token.punctuation]
      | accept wanted flag =>
        rw [lossless_accept_iff coherent found rfl fun _ => rfl]
        grind [acceptsHalf]

theorem step_coherent (call : Call) (tokenizer : SymbolTokenizer) (coherent : Coherent tokenizer) :
    Coherent (step call tokenizer).2 := by
  cases call
  all_goals
    simp only [step, perform, peek_eq, advance_eq, SymbolTokenizer.acceptType, SymbolTokenizer.accept, acceptWhen_eq]
    repeat' split
  all_goals first
    | exact coherent.loaded
    | exact coherent_unloaded _

end Steps


section Runs

inductive Reconstitutes : List Token → Text → Text → Prop where
  | done (rest : Text) : Reconstitutes [] rest rest
  | spaces {tokens : List Token} {source rest : Text} (spaces : Text) (blank : spaces.all isSpace = true)
      (next : Reconstitutes tokens source rest) : Reconstitutes tokens (spaces ++ source) rest
  | token {tokens : List Token} {source rest : Text} (token : Token)
      (next : Reconstitutes tokens source rest) : Reconstitutes (token :: tokens) (token.str ++ source) rest

def consumedTokens (calls : List Call) (answers : List Answer) : List Token :=
  (List.zipWith consumed calls answers).reduceOption

def otherAnswers (calls : List Call) (answers : List Answer) : List Answer :=
  ((calls.zip answers).filter fun entry => !entry.1.isPeek).map Prod.snd

theorem reconstitutes_of_lossless (calls : List Call) (tokenizer : SymbolTokenizer)
    (lossless : EveryStep step Lossless calls tokenizer) :
    Reconstitutes (consumedTokens calls (run step calls tokenizer).1) tokenizer.source
      (run step calls tokenizer).2.source := by
  induction calls generalizing tokenizer with
  | nil => exact .done _
  | cons call rest ih =>
    obtain ⟨here, later⟩ := lossless
    have next := ih _ later
    obtain ⟨-, here⟩ := here
    unfold consumedTokens at next ⊢
    rw [run, List.zipWith_cons_cons]
    cases taken : consumed call (step call tokenizer).1 with
    | none =>
      rw [taken] at here
      obtain ⟨spaces, blank, same⟩ := here
      rw [List.reduceOption_cons_of_none, same]
      exact .spaces spaces blank next
    | some token =>
      rw [taken] at here
      rw [List.reduceOption_cons_of_some, ← List.takeWhile_append_dropWhile (p := isSpace) (l := tokenizer.source)]
      refine .spaces _ List.all_takeWhile ?_
      rw [← stripped, here.2]
      exact .token token next

def SameAhead (tokenizer other : SymbolTokenizer) : Prop :=
  tokenizer.look = other.look ∧ tokenizer.loaded = other.loaded

theorem sameAhead_peek (flag : Bool) (tokenizer : SymbolTokenizer) :
    SameAhead (step (.peek flag) tokenizer).2 tokenizer := by
  rw [step, perform, peek_eq]
  exact ⟨look_loaded tokenizer, loaded_loaded tokenizer⟩

theorem SameAhead.step_eq {tokenizer other : SymbolTokenizer} (same : SameAhead tokenizer other) (call : Call) :
    step call tokenizer = step call other := by
  unfold step
  cases call
  all_goals
    simp only [perform, peek_eq, advance_eq, SymbolTokenizer.acceptType, SymbolTokenizer.accept, acceptWhen_eq,
      same.1, same.2]

theorem otherAnswers_run (calls : List Call) (tokenizer other : SymbolTokenizer) (same : SameAhead tokenizer other) :
    otherAnswers calls (run step calls tokenizer).1 = (run step (calls.filter (!·.isPeek)) other).1 := by
  induction calls generalizing tokenizer other with
  | nil => rfl
  | cons call rest ih =>
    unfold otherAnswers at ih ⊢
    cases call with
    | peek flag =>
      have ahead := sameAhead_peek flag tokenizer
      exact ih _ _ ⟨ahead.1.trans same.1, ahead.2.trans same.2⟩
    | _ =>
      rw [run, List.zip_cons_cons, List.filter_cons_of_pos rfl, List.filter_cons_of_pos rfl, run, same.step_eq]
      exact congrArg _ (ih _ _ ⟨rfl, rfl⟩)

/-- What the calls on a tokenizer should make of a source: every call is lossless, the consumed
tokens make up what was consumed, and a run with other peeks gives the other calls the same answers. -/
structure LosslessRun (source : Text) (calls : List Call) : Prop where
  steps : EveryStep step Lossless calls (start source)
  consumed : Reconstitutes (consumedTokens calls (run step calls (start source)).1) source
    (run step calls (start source)).2.source
  peeks : ∀ others : List Call, (others.filter fun call => !call.isPeek) = calls.filter (fun call => !call.isPeek) →
    otherAnswers others (run step others (start source)).1 = otherAnswers calls (run step calls (start source)).1

/-- A run is lossless exactly when no call in it reads beyond the end or accepts half of a `>>`. -/
theorem losslessRun_iff (source : Text) (calls : List Call) :
    LosslessRun source calls ↔ EveryStep step Sound calls (start source) := by
  have same := everyStep_congr lossless_iff_sound step_coherent calls _ (coherent_unloaded source)
  constructor
  · intro lossless
    exact same.mp lossless.steps
  · intro sound
    have steps := same.mpr sound
    refine ⟨steps, reconstitutes_of_lossless calls _ steps, fun others equal => ?_⟩
    rw [otherAnswers_run others _ _ ⟨rfl, rfl⟩, equal, ← otherAnswers_run calls _ _ ⟨rfl, rfl⟩]

/-- An accept of `>` consumes both characters of `>>`. -/
theorem losslessRun_fails :
    step (.accept (.punctuation ">") true) (start ">>".toList) = (.ok (some (.punctuation ">")), ⟨[], none⟩) ∧
      ¬ LosslessRun ">>".toList [.accept (.punctuation ">") true] := by
  have stepped : step (.accept (.punctuation ">") true) (start ">>".toList) =
      (.ok (some (.punctuation ">")), ⟨[], none⟩) := by decide
  refine ⟨stepped, fun lossless => ?_⟩
  have here := lossless.steps.1
  rw [Lossless, stepped] at here
  exact absurd here.2.2 (by decide)

end Runs

end Cpptrace.PruneSymbol
