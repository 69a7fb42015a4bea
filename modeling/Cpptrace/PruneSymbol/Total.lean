import Cpptrace.PruneSymbol.Lossless
import Cpptrace.PruneSymbol.Fuel

/-! `prune_symbol` returns for every text.

What a call has to work with is the number of characters left behind leading
space. A parser function that reports success has used some of them up, and the
fuel that a function needs grows with them.
-/

set_option autoImplicit false

namespace Cpptrace.PruneSymbol

open Library Library.Outcome SymbolTokenizer

def IsParseError (failure : Failure) : Prop := failure = .parseError ∨ failure = .readPastEnd

abbrev Reports {α : Type} (outcome : Except Failure α) : Prop := FailsOnly IsParseError outcome

section Tokens

variable {α : Type}

theorem reports_ok (value : α) : Reports (.ok value : Except Failure α) := failsOnly_ok IsParseError value

theorem reports_parseError : Reports (.error .parseError : Except Failure α) := failsOnly_error (.inl rfl)

theorem reports_readPastEnd : Reports (.error .readPastEnd : Except Failure α) := failsOnly_error (.inr rfl)

theorem scanQuotedString_reports (closingQuote : Char) (source : Text) :
    Reports (scanQuotedString closingQuote source) := by
  fun_induction scanQuotedString closingQuote source with
  | case1 => exact reports_parseError
  | case2 => exact reports_ok _
  | case3 => exact reports_parseError
  | case4 => exact reports_readPastEnd
  | case5 _ _ _ _ ih => exact ih.bind fun _ _ => reports_ok _
  | case6 _ _ _ _ ih => exact ih.bind fun _ _ => reports_ok _

theorem peekMsvcString_reports (source : Text) : Reports (peekMsvcString source) := by
  cases source with
  | nil => exact reports_ok _
  | cons c rest =>
    unfold peekMsvcString
    dsimp only
    split
    · split
      · exact reports_ok _
      · exact reports_parseError
    · exact reports_ok _

theorem parseQuotedString_reports (source : Text) : Reports (parseQuotedString source) := by
  cases source with
  | nil => exact reports_ok _
  | cons c rest =>
    unfold parseQuotedString
    dsimp only
    split
    · exact (scanQuotedString_reports c rest).bind fun _ _ => reports_ok _
    · exact reports_ok _

theorem peekLiteral_reports (source : Text) : Reports (peekLiteral source) := by
  unfold peekLiteral
  split
  · exact reports_ok _
  · refine (peekMsvcString_reports source).bind fun msvcString _ => ?_
    cases msvcString with
    | some str => exact reports_ok _
    | none => exact parseQuotedString_reports source

theorem tokenAt_reports (source : Text) (nonempty : source ≠ []) : Reports (tokenAt source) := by
  unfold tokenAt
  split
  · exact reports_ok _
  · refine (peekLiteral_reports source).bind fun literal _ => ?_
    cases literal with
    | some literal => exact reports_ok _
    | none =>
      dsimp only
      split
      · exact reports_ok _
      · split
        · exact reports_ok _
        · cases source with
          | nil => exact absurd rfl nonempty
          | cons c rest => exact reports_ok _

theorem look_reports (tokenizer : SymbolTokenizer) : Reports tokenizer.look := by
  unfold look
  split
  · exact reports_ok _
  · split
    next => exact reports_ok _
    next nonempty => exact (tokenAt_reports _ nonempty).bind fun _ _ => reports_ok _

end Tokens

section Calls

def UpTo (n : Nat) (tokenizer : SymbolTokenizer) : Prop := Coherent tokenizer ∧ tokenizer.stripped.length ≤ n

def Below (n : Nat) (tokenizer : SymbolTokenizer) : Prop := Coherent tokenizer ∧ tokenizer.stripped.length < n

def Loaded (token : Option Token) (n : Nat) (tokenizer : SymbolTokenizer) : Prop :=
  UpTo n tokenizer ∧ tokenizer.nextToken = token

def Advanced (took : Bool) (n : Nat) (tokenizer : SymbolTokenizer) : Prop :=
  if took then Below n tokenizer else UpTo n tokenizer

/-- A command that stops, if at all, with a parse error, by the tokenizers around it. -/
abbrev Parses {α : Type} (before : SymbolTokenizer → Prop) (command : Parse α)
    (after : α → SymbolTokenizer → Prop) : Prop :=
  Yields IsParseError (fun parser : SymbolParser => before parser.tokenizer) command
    fun value parser => after value parser.tokenizer

variable {α : Type} {n : Nat} {tokenizer : SymbolTokenizer} {before : SymbolTokenizer → Prop}
  {after : α → SymbolTokenizer → Prop}

theorem Below.upTo (below : Below n tokenizer) : UpTo n tokenizer := ⟨below.1, Nat.le_of_lt below.2⟩

theorem UpTo.below_succ (upTo : UpTo n tokenizer) : Below (n + 1) tokenizer := ⟨upTo.1, Nat.lt_succ_of_le upTo.2⟩

theorem Advanced.upTo {took : Bool} (advanced : Advanced took n tokenizer) : UpTo n tokenizer := by
  cases took with
  | true => exact Below.upTo advanced
  | false => exact advanced

theorem Below.advanced (below : Below n tokenizer) (took : Bool) : Advanced took n tokenizer := by
  cases took with
  | true => exact below
  | false => exact below.upTo

theorem parses_below {command : Parse α} (each : ∀ k, n = k + 1 → Parses (UpTo k) command after) :
    Parses (Below n) command after := by
  intro parser below
  cases n with
  | zero => exact absurd below.2 (Nat.not_lt_zero _)
  | succ k => exact each k rfl parser ⟨below.1, Nat.le_of_lt_succ below.2⟩

theorem parses_onTokenizer {command : Tokenize α} (valid : Yields IsParseError before command after) :
    Parses before (onTokenizer command) after := fun parser => valid parser.tokenizer

theorem parses_onOutput {change : Output → Output} : Parses before (onOutput change) fun _ => before :=
  fun _ holds => holds

theorem UpTo.loaded (upTo : UpTo n tokenizer) : UpTo n tokenizer.loaded := by
  refine ⟨upTo.1.loaded, ?_⟩
  rw [stripped_loaded]
  exact upTo.2

theorem UpTo.drop (upTo : UpTo n tokenizer) {token : Token} (front : AtFront token tokenizer.stripped) :
    Below n ⟨tokenizer.loaded.source.drop token.str.length, none⟩ := by
  refine ⟨coherent_unloaded _, ?_⟩
  have positive := List.length_pos_iff.mpr front.1
  have most := List.IsPrefix.length_le front.2
  have shrinks := (List.dropWhile_suffix isSpace (l := tokenizer.stripped.drop token.str.length)).length_le
  have bound := upTo.2
  show (List.dropWhile isSpace (tokenizer.loaded.source.drop token.str.length)).length < n
  rw [upTo.1.loaded_source]
  rw [List.length_drop] at shrinks
  omega

theorem peek_parses : Parses (UpTo n) (onTokenizer peek) fun token => Loaded token n := by
  refine parses_onTokenizer fun tokenizer upTo => ?_
  rw [peek_eq]
  cases found : tokenizer.look with
  | error failure => exact look_reports tokenizer failure found
  | ok token =>
    refine ⟨upTo.loaded, ?_⟩
    rw [loaded_nextToken, found]
    cases token <;> rfl

theorem look_of_cached {token : Token} (cached : tokenizer.nextToken = some token) :
    tokenizer.look = .ok (some token) ∧ tokenizer.loaded = tokenizer := by
  obtain ⟨source, nextToken⟩ := tokenizer
  cases cached
  exact ⟨rfl, rfl⟩

theorem peek_parses_again {token : Token} {next : Option Token → Parse α}
    (second : Parses (Loaded (some token) n) (next (some token)) after) :
    Parses (Loaded (some token) n) (onTokenizer peek >>= next) after := by
  intro parser holds
  have same := look_of_cached holds.2
  have peeked : onTokenizer peek parser = (.ok (some token), parser) := by
    show (_, _) = _
    rw [peek_eq, same.1, same.2]
    rfl
  rw [Command.bind_apply, peeked]
  exact second parser holds

theorem advance_yields (flag : Bool) :
    Yields IsParseError (UpTo n) (advance flag) fun token => Advanced token.isSome n := by
  intro tokenizer upTo
  rw [advance_eq]
  cases found : tokenizer.look with
  | error failure => exact look_reports tokenizer failure found
  | ok token =>
    cases token with
    | none => exact upTo.loaded
    | some token => exact upTo.drop ((upTo.1.look_atFront found).adjusted flag)

theorem advance_loaded_parses (token : Token) :
    Parses (Loaded (some token) n) (dropResult (onTokenizer advance)) fun _ => Below n := by
  intro parser holds
  have same := look_of_cached holds.2
  have advanced := advance_eq parser.tokenizer false
  have front := holds.1.1.look_atFront same.1
  rw [same.1] at advanced
  show Below n (advance false parser.tokenizer).2
  rw [advanced]
  exact holds.1.drop front

theorem accept_yields (wanted : Token → Bool) :
    Yields IsParseError (UpTo n) (acceptWhen wanted false) fun token => Advanced token.isSome n := by
  intro tokenizer upTo
  rw [acceptWhen_eq]
  cases found : tokenizer.look with
  | error failure => exact look_reports tokenizer failure found
  | ok token =>
    cases token with
    | none => exact upTo.loaded
    | some token =>
      by_cases accepted : wanted (adjusted false token) = true
      · simp only [if_pos accepted]
        exact upTo.drop (upTo.1.look_atFront found)
      · simp only [if_neg accepted]
        exact upTo.loaded

theorem accept_parses (wanted : Token → Bool) :
    Parses (UpTo n) (onTokenizer (acceptWhen wanted false)) fun token => Advanced token.isSome n :=
  parses_onTokenizer (accept_yields wanted)

/-- A command that leaves no more than there was keeps what is below a bound below it. -/
theorem keeps_below {command : Parse α} (keeps : ∀ k, n = k + 1 → Parses (UpTo k) command fun _ => UpTo k) :
    Parses (Below n) command fun _ => Below n := by
  refine parses_below fun k less => (keeps k less).weaken (fun _ upTo => upTo) fun _ _ upTo => ?_
  rw [less]
  exact upTo.below_succ

theorem parses_parseError : Parses before (throw .parseError : Parse α) after := Yields.throw (.inl rfl)

end Calls

section Functions

variable {n : Nat}

theorem accept_keeps (wanted : Token → Bool) :
    Parses (Below n) (onTokenizer (acceptWhen wanted false)) fun _ => Below n :=
  keeps_below fun _ _ => (accept_parses wanted).weaken (fun _ upTo => upTo) fun _ _ advanced => advanced.upTo

theorem expect_keeps (wanted : Token) : Parses (Below n) (expect wanted) fun _ => Below n := by
  refine (accept_keeps _).bind fun token => ?_
  cases token with
  | none => exact parses_parseError
  | some token => exact Yields.pure fun _ below => below

theorem expectType_keeps (type : TokenType) : Parses (Below n) (expectType type) fun _ => Below n := by
  refine (accept_keeps _).bind fun token => ?_
  cases token with
  | none => exact parses_parseError
  | some token => exact Yields.pure fun _ below => below

theorem succeeds : Parses (Below n) (pure true) fun took => Advanced took n := Yields.pure fun _ below => below

theorem acceptPointerRef_parses (append : Bool) (fuel n : Nat) (matched : Bool) (enough : 8 * n + 1 ≤ fuel) :
    Parses (UpTo n) (acceptPointerRef append fuel matched) fun found => Advanced (found && !matched) n := by
  induction fuel generalizing n matched with
  | zero => cases enough
  | succ fuel ih =>
    refine peek_parses.bind fun token => ?_
    cases token with
    | none => exact Yields.pure fun _ ended => by simpa [Advanced] using ended.1
    | some token =>
      refine Yields.ite (fun _ => ?_) fun _ => Yields.pure fun _ stays => by simpa [Advanced] using stays.1
      have goesOn : Parses (Loaded (some token) n)
          (do dropResult (onTokenizer advance); acceptPointerRef append fuel true)
          fun found => Advanced (found && !matched) n := by
        refine (advance_loaded_parses token).bind fun _ => parses_below fun k less => ?_
        refine (ih k true (by omega)).weaken (fun _ upTo => upTo) fun found _ upTo => ?_
        rw [less]
        exact upTo.upTo.below_succ.advanced _
      cases append with
      | true => exact parses_onOutput.bind fun _ => goesOn
      | false => exact goesOn

/-- What a function does that looks at a loaded token and takes it or leaves it. -/
def TakesOrLeaves (token : Token) (n : Nat) (took : Bool) (tokenizer : SymbolTokenizer) : Prop :=
  if took then Below n tokenizer else Loaded (some token) n tokenizer

theorem takes {token : Token} : Parses (Below n) (pure true) (TakesOrLeaves token n) := Yields.pure fun _ below => below

theorem leaves {token : Token} : Parses (Loaded (some token) n) (pure false) (TakesOrLeaves token n) :=
  Yields.pure fun _ stays => stays

theorem acceptIgnoredIdentifier_parses (token : Token) :
    Parses (Loaded (some token) n) acceptIgnoredIdentifier (TakesOrLeaves token n) :=
  peek_parses_again <| Yields.ite (fun _ => (advance_loaded_parses token).bind fun _ => takes) fun _ => leaves

theorem acceptAnonymousNamespace_parses : Parses (UpTo n) acceptAnonymousNamespace fun took => Advanced took n := by
  refine (accept_parses _).bind fun token => ?_
  cases token with
  | none => exact Yields.pure fun _ upTo => upTo
  | some token => exact parses_onOutput.bind fun _ => Yields.pure fun _ below => below

theorem acceptNewDelete_parses : Parses (UpTo n) acceptNewDelete fun took => Advanced took n := by
  refine peek_parses.bind fun token => ?_
  cases token with
  | none => exact Yields.pure fun _ ended => ended.1
  | some token =>
    refine Yields.ite (fun _ => ?_) fun _ => Yields.pure fun _ stays => stays.1
    refine (advance_loaded_parses token).bind fun _ => parses_onOutput.bind fun _ => (accept_keeps _).bind fun op => ?_
    cases op with
    | none => exact succeeds
    | some op =>
      exact parses_onOutput.bind fun _ => (expect_keeps _).bind fun _ => parses_onOutput.bind fun _ => succeeds

theorem acceptSpecialDecltype_parses : Parses (UpTo n) acceptSpecialDecltype fun took => Advanced took n := by
  refine (accept_parses _).bind fun token => ?_
  cases token with
  | none => exact Yields.pure fun _ upTo => upTo
  | some token =>
    refine parses_onOutput.bind fun _ => (expect_keeps _).bind fun _ => parses_onOutput.bind fun _ => ?_
    refine (expectType_keeps _).bind fun ident => Yields.ite (fun _ => ?_) fun _ => parses_parseError
    exact parses_onOutput.bind fun _ => (expect_keeps _).bind fun _ => parses_onOutput.bind fun _ => succeeds

theorem acceptIdentifierToken_parses : Parses (UpTo n) acceptIdentifierToken fun took => Advanced took n := by
  refine (accept_parses _).bind fun complement => ?_
  cases complement with
  | none =>
    refine (accept_parses _).bind fun token => ?_
    cases token with
    | none => exact Yields.pure fun _ upTo => upTo
    | some token => exact parses_onOutput.bind fun _ => succeeds
  | some complement =>
    refine parses_onOutput.bind fun _ => (accept_keeps _).bind fun token => ?_
    cases token with
    | none => exact parses_parseError
    | some token => exact parses_onOutput.bind fun _ => succeeds

theorem skipFunctionPointerModifiers_parses (fuel n : Nat) (sawPointer : Bool) (enough : 8 * n + 1 ≤ fuel) :
    Parses (UpTo n) (skipFunctionPointerModifiers fuel sawPointer) fun _ => UpTo n := by
  induction fuel generalizing n sawPointer with
  | zero => cases enough
  | succ fuel ih =>
    refine peek_parses.bind fun token => ?_
    cases token with
    | none => exact Yields.pure fun _ ended => ended.1
    | some token =>
      have skips (saw : Bool) : Parses (Loaded (some token) n)
          (do dropResult (onTokenizer advance); skipFunctionPointerModifiers fuel saw) fun _ => UpTo n := by
        refine (advance_loaded_parses token).bind fun _ => parses_below fun k less => ?_
        refine (ih k saw (by omega)).weaken (fun _ upTo => upTo) fun _ _ upTo => ?_
        rw [less]
        exact upTo.below_succ.upTo
      exact Yields.ite (fun _ => skips true) fun _ => Yields.ite (fun _ => skips sawPointer) fun _ =>
        Yields.pure fun _ stays => stays.1

theorem closeGccTag_parses (tokens : List Token) :
    Parses (Below n) (closeGccTag tokens) fun took => Advanced took n := by
  have appends (tokens : List Token) : Parses (Below n) (tokens.forM appendOutput) fun _ => Below n := by
    induction tokens with
    | nil => exact Yields.pure fun _ below => below
    | cons token tokens ih => exact parses_onOutput.bind fun _ => ih
  refine (expect_keeps _).bind fun _ => (expectType_keeps _).bind fun _ => ?_
  refine ((expect_keeps _).discard fun _ _ below => below).bind fun _ => parses_onOutput.bind fun _ => ?_
  refine (appends tokens).bind fun _ => parses_onOutput.bind fun _ => parses_onOutput.bind fun _ => ?_
  exact parses_onOutput.bind fun _ => succeeds

theorem acceptMsvcLambda_parses : Parses (UpTo n) acceptMsvcLambda fun took => Advanced took n := by
  refine (accept_parses _).bind fun token => ?_
  cases token with
  | none => exact Yields.pure fun _ upTo => upTo
  | some token =>
    refine (expectType_keeps _).bind fun _ => Yields.ite (fun _ => ?_) fun _ => parses_parseError
    refine (expect_keeps _).bind fun _ => parses_onOutput.bind fun _ => parses_onOutput.bind fun _ => ?_
    exact parses_onOutput.bind fun _ => succeeds

theorem acceptScopeResolution_parses : Parses (UpTo n) acceptScopeResolution fun took => Advanced took n := by
  refine (accept_parses _).bind fun token => ?_
  cases token with
  | none => exact Yields.pure fun _ upTo => upTo
  | some token =>
    refine parses_onOutput.bind fun _ => (accept_keeps _).bind fun star => ?_
    cases star with
    | none => exact succeeds
    | some star => exact parses_onOutput.bind fun _ => succeeds

end Functions

section Lookahead

variable {n : Nat} {tokenizer : SymbolTokenizer}

theorem lookaheadSign_yields (fuel n : Nat) (enough : n < fuel) :
    Yields IsParseError (UpTo n) (lookaheadSign fuel) fun _ _ => True := by
  induction fuel generalizing n with
  | zero => cases enough
  | succ fuel ih =>
    refine (advance_yields false).bind fun token => ?_
    cases token with
    | none => exact Yields.pure fun _ _ => trivial
    | some token =>
      refine Yields.ite (fun _ => Yields.pure fun _ _ => trivial) fun _ => ?_
      refine Yields.ite (fun _ => ?_) fun _ => Yields.pure fun _ _ => trivial
      intro tokenizer below
      have less : tokenizer.stripped.length < n := below.2
      exact ih _ (by omega) tokenizer ⟨below.1, Nat.le_refl _⟩

/-- The lookahead does not depend on the fuel, as long as there is enough. -/
theorem lookaheadSign_fuel (fuel fuel' n : Nat) (enough : n < fuel) (enough' : n < fuel') (upTo : UpTo n tokenizer) :
    lookaheadSign fuel tokenizer = lookaheadSign fuel' tokenizer := by
  induction fuel generalizing fuel' n tokenizer with
  | zero => cases enough
  | succ fuel ih =>
    obtain ⟨fuel', rfl⟩ : ∃ less, fuel' = less + 1 := ⟨fuel' - 1, by omega⟩
    have ran := advance_yields false tokenizer upTo
    rw [lookaheadSign, lookaheadSign, Command.bind_apply, Command.bind_apply]
    cases outcome : (advance false tokenizer).1 with
    | error failure => rfl
    | ok token =>
      rw [outcome] at ran
      cases token with
      | none => rfl
      | some token =>
        have below : Below n (advance false tokenizer).2 := ran
        have positive := Nat.lt_of_le_of_lt (Nat.zero_le _) below.2
        have same := ih fuel' (n - 1) (by omega) (by omega) ⟨below.1, Nat.le_sub_one_of_lt below.2⟩
        simp only [Command.ite_apply, same]

theorem functionPointerAhead_reports (fuel : Nat) (enough : n < fuel) (upTo : UpTo n tokenizer) :
    Reports (functionPointerAhead fuel tokenizer).1 := by
  have yields : Yields IsParseError (UpTo n) (functionPointerAhead fuel) fun _ _ => True := by
    refine (accept_yields _).bind fun token => ?_
    cases token with
    | none => exact Yields.pure fun _ _ => trivial
    | some token =>
      exact (lookaheadSign_yields fuel n enough).weaken (fun _ below => Below.upTo below) fun _ _ _ => trivial
  have ran := yields tokenizer upTo
  intro failure failed
  rw [failed] at ran
  exact ran

theorem functionPointerAhead_fuel (fuel fuel' : Nat) (enough : n < fuel) (enough' : n < fuel')
    (upTo : UpTo n tokenizer) : functionPointerAhead fuel tokenizer = functionPointerAhead fuel' tokenizer := by
  have ran := accept_yields (fun token => token = .punctuation "(") tokenizer upTo
  unfold functionPointerAhead SymbolTokenizer.accept
  rw [Command.bind_apply, Command.bind_apply]
  cases outcome : (acceptWhen (fun token => token = .punctuation "(") false tokenizer).1 with
  | error failure => rfl
  | ok token =>
    rw [outcome] at ran
    cases token with
    | none => rfl
    | some token =>
      have below : Below n _ := ran
      exact lookaheadSign_fuel fuel fuel' n enough enough' below.upTo

def PointerAhead (n : Nat) (tokenizer : SymbolTokenizer) : Prop :=
  UpTo n tokenizer ∧ ∀ fuel, n < fuel → (functionPointerAhead fuel tokenizer).1 = .ok true

theorem lookahead_parses (fuel : Nat) (enough : n < fuel) :
    Parses (UpTo n) (lookaheadIsFunctionPointer fuel) fun found tokenizer =>
      if found = true then PointerAhead n tokenizer else UpTo n tokenizer := by
  intro parser upTo
  have reports := functionPointerAhead_reports fuel enough upTo
  unfold lookaheadIsFunctionPointer
  rw [Command.bind_apply, Command.get_apply]
  dsimp only
  cases outcome : (functionPointerAhead fuel parser.tokenizer).1 with
  | ok found =>
    cases found with
    | false => exact upTo
    | true =>
      have always : ∀ fuel', n < fuel' → (functionPointerAhead fuel' parser.tokenizer).1 = .ok true := by
        intro fuel' enough'
        rw [functionPointerAhead_fuel fuel' fuel enough' enough upTo]
        exact outcome
      exact ⟨upTo, always⟩
  | error failure =>
    rcases reports failure outcome with rfl | rfl
    · exact upTo
    · exact upTo

theorem lookahead_again {α : Type} {fuel : Nat} {next : Bool → Parse α} {after : α → SymbolTokenizer → Prop}
    (enough : n < fuel) (second : Parses (UpTo n) (next true) after) :
    Parses (PointerAhead n) (lookaheadIsFunctionPointer fuel >>= next) after := by
  intro parser ahead
  have looked : lookaheadIsFunctionPointer fuel parser = (.ok true, parser) := by
    unfold lookaheadIsFunctionPointer
    rw [Command.bind_apply, Command.get_apply]
    dsimp only
    rw [ahead.2 fuel enough]
    rfl
  rw [Command.bind_apply, looked]
  exact second parser ahead.1

end Lookahead


/-- What every function of the parser does with that much fuel. The numbers are calls: a function
may make a few before one that has less to read, and a token pays for eight. -/
structure Total (fuel : Nat) : Prop where
  consumeBalanced : ∀ n opening, isOpeningPunctuation opening = true → 8 * n + 3 ≤ fuel →
    Parses (UpTo n) (consumeBalanced fuel opening) fun _ => UpTo n
  consumeBalancedWithin : ∀ n opening closing depth, 8 * n + 2 ≤ fuel →
    Parses (UpTo n) (consumeBalancedWithin fuel opening closing depth) fun _ => UpTo n
  acceptBalancedPunctuation : ∀ n token, 8 * n + 1 ≤ fuel →
    Parses (Loaded (some token) n) (acceptBalancedPunctuation fuel) (TakesOrLeaves token n)
  acceptOperator : ∀ n flag, 8 * n + 1 ≤ fuel →
    Parses (UpTo n) (acceptOperator fuel flag) fun took => Advanced took n
  acceptOperatorPunctuation : ∀ n flag, 8 * n + 5 ≤ fuel →
    Parses (UpTo n) (acceptOperatorPunctuation fuel flag) fun _ => UpTo n
  consumePunctuation : ∀ n didConsume, 8 * n + 2 ≤ fuel →
    Parses (UpTo n) (consumePunctuation fuel didConsume) fun _ => UpTo n
  acceptLambdaOrUnnamed : ∀ n, 8 * n + 1 ≤ fuel →
    Parses (UpTo n) (acceptLambdaOrUnnamed fuel) fun took => Advanced took n
  parseSymbolTerm : ∀ n, 8 * n + 2 ≤ fuel →
    Parses (UpTo n) (parseSymbolTerm fuel) fun took => Advanced took n
  consumePunctuationAndTrailingModifiers : ∀ n didConsume, 8 * n + 2 ≤ fuel →
    Parses (UpTo n) (consumePunctuationAndTrailingModifiers fuel didConsume) fun _ => UpTo n
  parseFunctionPointer : ∀ n, 8 * n + 2 ≤ fuel →
    Parses (PointerAhead n) (parseFunctionPointer fuel) fun took => Advanced took n
  parseSymbolBase : ∀ n, 8 * n + 3 ≤ fuel →
    Parses (UpTo n) (parseSymbolBase fuel) fun took => Advanced took n
  parseSymbol : ∀ n madeProgress, 8 * n + 4 ≤ fuel →
    Parses (UpTo n) (parseSymbol fuel madeProgress) fun progress => Advanced (progress && !madeProgress) n
  parse : ∀ n, 8 * n + 5 ≤ fuel → Parses (UpTo n) (parse fuel) fun _ => UpTo n
  pruneSymbolWith : ∀ symbol, 8 * symbol.length + 6 ≤ fuel → ∃ pruned, pruneSymbolWith fuel symbol = .ok pruned

section Mutual

variable {fuel n : Nat}

theorem below_keeps {α : Type} {command : Parse α} {cost : Nat} (enough : 8 * n + cost ≤ fuel + 8)
    (valid : ∀ k, 8 * k + cost ≤ fuel → Parses (UpTo k) command fun _ => UpTo k) :
    Parses (Below n) command fun _ => Below n :=
  keeps_below fun k less => valid k (by omega)

theorem accepts_keeps {command : Parse Bool} (valid : ∀ k, Parses (UpTo k) command fun took => Advanced took k) :
    Parses (Below n) command fun _ => Below n :=
  keeps_below fun k _ => (valid k).weaken (fun _ upTo => upTo) fun _ _ advanced => advanced.upTo

theorem keeps_upTo {α : Type} {command : Parse α} (keeps : Parses (Below n) command fun _ => Below n) :
    Parses (Below n) command fun _ => UpTo n :=
  keeps.weaken (fun _ below => below) fun _ _ below => Below.upTo below

theorem getCorrespondingPunctuation_ok (opening : Text) (opens : isOpeningPunctuation opening = true) :
    ∃ closing, getCorrespondingPunctuation opening = .ok closing := by
  unfold isOpeningPunctuation at opens
  simp only [Bool.or_eq_true, decide_eq_true_eq] at opens
  rcases opens with ((same | same) | same) | same <;> subst same
  all_goals exact ⟨_, rfl⟩

theorem parses_ofExcept {α β : Type} {before : SymbolTokenizer → Prop} {after : β → SymbolTokenizer → Prop}
    {outcome : Except Failure α} {value : α} {next : α → Parse β} (known : outcome = .ok value)
    (second : Parses before (next value) after) : Parses before (MonadExcept.ofExcept outcome >>= next) after := by
  rw [known]
  exact fun parser holds => second parser holds

theorem consumeBalanced_succ (total : Total fuel) (opening : Text) (opens : isOpeningPunctuation opening = true)
    (enough : 8 * n + 3 ≤ fuel + 1) :
    Parses (UpTo n) (consumeBalanced (fuel + 1) opening) fun _ => UpTo n := by
  obtain ⟨closing, known⟩ := getCorrespondingPunctuation_ok opening opens
  rw [consumeBalanced]
  exact parses_ofExcept known (total.consumeBalancedWithin n opening closing 1 (by omega))

theorem consumeBalancedWithin_succ (total : Total fuel) (opening closing : Text) (depth : Nat)
    (enough : 8 * n + 2 ≤ fuel + 1) :
    Parses (UpTo n) (consumeBalancedWithin (fuel + 1) opening closing depth) fun _ => UpTo n := by
  have operator : Parses (UpTo n)
      (if opening = "<".toList then acceptOperator fuel true else pure false) fun took => Advanced took n :=
    Yields.ite (fun _ => total.acceptOperator n true (by omega)) fun _ => Yields.pure fun _ upTo => upTo
  have again (depth : Nat) : Parses (Below n) (consumeBalancedWithin fuel opening closing depth) fun _ => Below n :=
    below_keeps (by omega) fun k => total.consumeBalancedWithin k opening closing depth
  rw [consumeBalancedWithin]
  refine Yields.ite (fun _ => Yields.pure fun _ upTo => upTo) fun _ => Yields.ite_bind operator fun accepted => ?_
  cases accepted with
  | true => exact keeps_upTo (again depth)
  | false =>
    refine (parses_onTokenizer (advance_yields _)).bind fun next => ?_
    cases next with
    | none => exact Yields.pure fun _ upTo => upTo
    | some next =>
      refine keeps_upTo ?_
      refine Yields.ite (fun _ => again _) fun _ => Yields.ite (fun _ => again _) fun _ => ?_
      refine Yields.ite (fun _ => again _) fun _ => Yields.ite (fun nested => ?_) fun _ => again _
      have opens : isOpeningPunctuation next.str = true := by simp at nested; exact nested.2
      have inner : Parses (Below n) (consumeBalanced fuel next.str) fun _ => Below n :=
        below_keeps (by omega) fun k => total.consumeBalanced k next.str opens
      exact (inner.discard fun _ _ below => below).bind fun _ => again _

theorem acceptBalancedPunctuation_succ (total : Total fuel) (token : Token) (enough : 8 * n + 1 ≤ fuel + 1) :
    Parses (Loaded (some token) n) (acceptBalancedPunctuation (fuel + 1)) (TakesOrLeaves token n) := by
  rw [acceptBalancedPunctuation]
  refine peek_parses_again <| Yields.ite (fun opens => ?_) fun _ => leaves
  have opening : isOpeningPunctuation token.str = true := by simp at opens; exact opens.2
  have inner : Parses (Below n) (consumeBalanced fuel token.str) fun _ => Below n :=
    below_keeps (by omega) fun k => total.consumeBalanced k token.str opening
  exact (advance_loaded_parses token).bind fun _ => (inner.discard fun _ _ below => below).bind fun _ => takes

theorem acceptOperator_succ (total : Total fuel) (isInTemplateList : Bool) (enough : 8 * n + 1 ≤ fuel + 1) :
    Parses (UpTo n) (acceptOperator (fuel + 1) isInTemplateList) fun took => Advanced took n := by
  have punctuation : Parses (Below n) (acceptOperatorPunctuation fuel isInTemplateList) fun _ => Below n :=
    below_keeps (by omega) fun k => total.acceptOperatorPunctuation k isInTemplateList
  have taken {command : Parse Bool} (keeps : Parses (Below n) command fun _ => Below n) :
      Parses (Below n) command fun took => Advanced took n :=
    keeps.weaken (fun _ below => below) fun took _ below => Below.advanced below took
  rw [acceptOperator]
  refine (accept_parses _).bind fun token => ?_
  cases token with
  | none => exact Yields.pure fun _ upTo => upTo
  | some token =>
    refine Yields.ite (fun _ => taken punctuation) fun _ => parses_onOutput.bind fun _ => ?_
    have newDelete : Parses (Below n) acceptNewDelete fun _ => Below n := accepts_keeps fun _ => acceptNewDelete_parses
    have decltype : Parses (Below n) acceptSpecialDecltype fun _ => Below n :=
      accepts_keeps fun _ => acceptSpecialDecltype_parses
    refine newDelete.bind fun _ => Yields.ite (fun _ => succeeds) fun _ => ?_
    refine decltype.bind fun _ => Yields.ite (fun _ => succeeds) fun _ => (accept_keeps _).bind fun coawait => ?_
    cases coawait with
    | some coawait => exact parses_onOutput.bind fun _ => succeeds
    | none =>
      refine (accept_keeps _).bind fun literal => ?_
      cases literal with
      | some literal =>
        refine (expectType_keeps _).bind fun _ => ?_
        exact parses_onOutput.bind fun _ => parses_onOutput.bind fun _ => succeeds
      | none => exact taken punctuation

theorem acceptOperatorPunctuation_succ (total : Total fuel) (isInTemplateList : Bool) (enough : 8 * n + 5 ≤ fuel + 1) :
    Parses (UpTo n) (acceptOperatorPunctuation (fuel + 1) isInTemplateList) fun _ => UpTo n := by
  have symbol : Parses (UpTo n) (parseSymbol fuel false) fun _ => UpTo n :=
    (total.parseSymbol n false (by omega)).weaken (fun _ upTo => upTo) fun _ _ advanced => advanced.upTo
  rw [acceptOperatorPunctuation]
  refine (accept_parses _).bind fun op => ?_
  cases op with
  | some op =>
    refine keeps_upTo <| Yields.optional_bind (fun _ => parses_onOutput) (fun _ _ below => below) ?_
    refine Yields.ite (fun opens => ?_) fun _ => Yields.pure fun _ below => below
    refine (accept_keeps _).bind fun op2 => ?_
    cases op2 with
    | none => exact parses_parseError
    | some op2 =>
      have opening : isOpeningPunctuation op.str = true := by
        unfold isOpeningPunctuation
        grind
      obtain ⟨closing, known⟩ := getCorrespondingPunctuation_ok op.str opening
      refine parses_ofExcept known <| Yields.ite (fun _ => parses_parseError) fun _ => ?_
      exact Yields.optional_bind (fun _ => parses_onOutput) (fun _ _ below => below) <| Yields.pure fun _ below => below
  | none =>
    refine Yields.ite (fun _ => Yields.pure fun _ upTo => upTo) fun _ => ?_
    refine (symbol.discard fun _ _ upTo => upTo).bind fun _ => peek_parses.bind fun maybeIdent => ?_
    cases maybeIdent with
    | none => exact Yields.pure fun _ ended => ended.1
    | some maybeIdent =>
      refine Yields.optional_bind (fun _ => ?_) (fun _ _ stays => stays.1) <| Yields.pure fun _ upTo => upTo
      exact (symbol.weaken (fun _ stays => stays.1) fun _ _ upTo => upTo).discard fun _ _ upTo => upTo

theorem consumePunctuation_succ (total : Total fuel) (didConsume : Bool) (enough : 8 * n + 2 ≤ fuel + 1) :
    Parses (UpTo n) (consumePunctuation (fuel + 1) didConsume) fun _ => UpTo n := by
  have again : Parses (Below n) (consumePunctuation fuel true) fun _ => Below n :=
    below_keeps (by omega) fun k => total.consumePunctuation k true
  rw [consumePunctuation]
  refine peek_parses.bind fun token => ?_
  cases token with
  | none => exact Yields.pure fun _ ended => ended.1
  | some token =>
    refine Yields.ite (fun _ => ?_) fun _ => Yields.pure fun _ stays => stays.1
    refine (total.acceptBalancedPunctuation n token (by omega)).bind fun took => ?_
    cases took with
    | true => exact keeps_upTo again
    | false => exact (advance_loaded_parses token).bind fun _ => keeps_upTo again

theorem consumePunctuationAndTrailingModifiers_succ (total : Total fuel) (didConsume : Bool)
    (enough : 8 * n + 2 ≤ fuel + 1) :
    Parses (UpTo n) (consumePunctuationAndTrailingModifiers (fuel + 1) didConsume) fun _ => UpTo n := by
  have again : Parses (Below n) (consumePunctuationAndTrailingModifiers fuel true) fun _ => Below n :=
    below_keeps (by omega) fun k => total.consumePunctuationAndTrailingModifiers k true
  rw [consumePunctuationAndTrailingModifiers]
  refine peek_parses.bind fun token => ?_
  cases token with
  | none => exact Yields.pure fun _ ended => ended.1
  | some token =>
    refine (total.acceptBalancedPunctuation n token (by omega)).bind fun took => ?_
    cases took with
    | true => exact keeps_upTo again
    | false =>
      refine (acceptIgnoredIdentifier_parses token).bind fun took => ?_
      cases took with
      | true => exact keeps_upTo again
      | false =>
        have sign := acceptPointerRef_parses false fuel n false (by omega)
        refine (sign.weaken (fun _ stays => stays.1) fun _ _ after => after).bind fun took => ?_
        cases took with
        | true => exact keeps_upTo again
        | false => exact Yields.pure fun _ upTo => upTo

theorem parseSymbolTerm_succ (total : Total fuel) (enough : 8 * n + 2 ≤ fuel + 1) :
    Parses (UpTo n) (parseSymbolTerm (fuel + 1)) fun took => Advanced took n := by
  rw [parseSymbolTerm]
  refine acceptAnonymousNamespace_parses.bind fun took => ?_
  cases took with
  | true => exact succeeds
  | false =>
    refine (total.acceptOperator n false (by omega)).bind fun took => ?_
    cases took with
    | true => exact succeeds
    | false =>
      refine acceptIdentifierToken_parses.bind fun took => ?_
      cases took with
      | true => exact succeeds
      | false => exact total.acceptLambdaOrUnnamed n (by omega)

theorem parseFunctionPointer_succ (total : Total fuel) (enough : 8 * n + 2 ≤ fuel + 1) :
    Parses (PointerAhead n) (parseFunctionPointer (fuel + 1)) fun took => Advanced took n := by
  have modifiers : Parses (Below n) (skipFunctionPointerModifiers fuel false) fun _ => Below n :=
    below_keeps (by omega) fun k enough => skipFunctionPointerModifiers_parses fuel k false enough
  have symbol : Parses (Below n) (parseSymbol fuel false) fun _ => Below n :=
    keeps_below fun k less =>
      (total.parseSymbol k false (by omega)).weaken (fun _ upTo => upTo) fun _ _ advanced => advanced.upTo
  rw [parseFunctionPointer]
  refine lookahead_again (by omega) <| (accept_parses _).bind fun token => ?_
  cases token with
  | none => exact Yields.pure fun _ upTo => upTo
  | some token =>
    refine modifiers.bind fun sawPointer => Yields.ite (fun _ => ?_) fun _ => parses_parseError
    refine parses_onOutput.bind fun _ => symbol.bind fun parsed => Yields.ite (fun _ => ?_) fun _ => parses_parseError
    exact ((expect_keeps _).discard fun _ _ below => below).bind fun _ => succeeds

theorem parseSymbolBase_succ (total : Total fuel) (enough : 8 * n + 3 ≤ fuel + 1) :
    Parses (UpTo n) (parseSymbolBase (fuel + 1)) fun took => Advanced took n := by
  have ahead : Parses (Below n) (lookaheadIsFunctionPointer fuel) fun found tokenizer =>
      if found = true then PointerAhead (n - 1) tokenizer ∧ 0 < n else Below n tokenizer := by
    refine parses_below fun k less => ?_
    refine (lookahead_parses fuel (by omega)).weaken (fun _ upTo => upTo) fun found tokenizer after => ?_
    subst less
    cases found with
    | true => exact ⟨after, Nat.succ_pos k⟩
    | false => exact UpTo.below_succ after
  have pointer : Parses (fun tokenizer => PointerAhead (n - 1) tokenizer ∧ 0 < n) (parseFunctionPointer fuel)
      fun _ => Below n := by
    intro parser holds
    have parsed : Parses (PointerAhead (n - 1)) (parseFunctionPointer fuel) fun _ => Below n :=
      (total.parseFunctionPointer (n - 1) (by omega)).weaken (fun _ ahead => ahead) fun _ _ advanced =>
        ⟨advanced.upTo.1, Nat.lt_of_le_pred holds.2 advanced.upTo.2⟩
    exact parsed parser holds.1
  rw [parseSymbolBase]
  refine (total.parseSymbolTerm n (by omega)).bind fun matchedTerm => ?_
  cases matchedTerm with
  | true =>
    refine ahead.bind fun found => ?_
    cases found with
    | true => exact pointer.bind fun _ => Yields.pure fun _ below => below
    | false => exact succeeds
  | false =>
    refine (lookahead_parses fuel (by omega)).bind fun found => ?_
    cases found with
    | true => exact (total.parseFunctionPointer n (by omega)).bind fun _ => Yields.pure fun _ advanced => advanced
    | false => exact Yields.pure fun _ upTo => upTo

theorem parseSymbol_succ (total : Total fuel) (madeProgress : Bool) (enough : 8 * n + 4 ≤ fuel + 1) :
    Parses (UpTo n) (parseSymbol (fuel + 1) madeProgress) fun progress => Advanced (progress && !madeProgress) n := by
  have sign : Parses (Below n) (discard (acceptPointerRef true fuel false)) fun _ => Below n :=
    (keeps_below fun k _ => (acceptPointerRef_parses true fuel k false (by omega)).weaken (fun _ upTo => upTo)
      fun _ _ advanced => advanced.upTo).discard fun _ _ below => below
  have modifiers : Parses (Below n) (discard (consumePunctuationAndTrailingModifiers fuel false)) fun _ => Below n :=
    (below_keeps (by omega) fun k => total.consumePunctuationAndTrailingModifiers k false).discard
      fun _ _ below => below
  rw [parseSymbol]
  refine peek_parses.bind fun token => ?_
  cases token with
  | none => exact Yields.pure fun _ ended => by simpa [Advanced] using ended.1
  | some token =>
    refine ((total.parseSymbolBase n (by omega)).weaken (fun _ stays => stays.1) fun _ _ after => after).bind ?_
    intro took
    cases took with
    | false => exact Yields.pure fun _ upTo => by simpa [Advanced] using upTo
    | true =>
      refine sign.bind fun _ => modifiers.bind fun _ => ?_
      refine (accepts_keeps fun _ => acceptScopeResolution_parses).bind fun scope => ?_
      cases scope with
      | false => exact Yields.pure fun _ below => below.advanced _
      | true =>
        refine parses_below fun k less => ?_
        refine (total.parseSymbol k true (by omega)).weaken (fun _ upTo => upTo) fun _ _ advanced => ?_
        rw [less]
        exact advanced.upTo.below_succ.advanced _

/-- One turn of the loop of `parse`; the result says whether it goes on. -/
def parseIteration (fuel : Nat) : Parse Bool := do
  match ← onTokenizer peek with
  | none => return false
  | some _ =>
    onOutput .reset
    if ← parseSymbol fuel false then return true
    else throw .parseError

theorem parse_eq_iteration (fuel : Nat) (parser : SymbolParser) :
    parse (fuel + 1) parser = (do if ← parseIteration fuel then parse fuel else return ()) parser := by
  rw [parse, parseIteration, Command.bind_apply, Command.bind_apply, Command.bind_apply]
  cases (onTokenizer peek parser).1 with
  | error failure => rfl
  | ok token =>
    cases token with
    | none => rfl
    | some token =>
      simp only [Command.bind_apply]
      cases (onOutput Output.reset (onTokenizer peek parser).2).1 with
      | error failure => rfl
      | ok value =>
        dsimp only
        cases (parseSymbol fuel false (onOutput Output.reset (onTokenizer peek parser).2).2).1 with
        | error failure => rfl
        | ok took => cases took <;> rfl

theorem parseIteration_parses (total : Total fuel) (enough : 8 * n + 4 ≤ fuel) :
    Parses (UpTo n) (parseIteration fuel) fun goesOn => Advanced goesOn n := by
  have symbol : Parses (UpTo n) (parseSymbol fuel false) fun took => Advanced took n :=
    (total.parseSymbol n false enough).weaken (fun _ upTo => upTo) fun _ _ advanced => by simpa using advanced
  refine peek_parses.bind fun token => ?_
  cases token with
  | none => exact Yields.pure fun _ ended => ended.1
  | some token =>
    refine (parses_onOutput.weaken (fun _ stays => stays.1) fun _ _ upTo => upTo).bind fun _ => ?_
    refine symbol.bind fun took => ?_
    cases took with
    | true => exact Yields.pure fun _ below => below
    | false => exact parses_parseError

theorem parse_succ (total : Total fuel) (enough : 8 * n + 5 ≤ fuel + 1) :
    Parses (UpTo n) (parse (fuel + 1)) fun _ => UpTo n := by
  have turns : Parses (UpTo n) (do if ← parseIteration fuel then parse fuel else return ()) fun _ => UpTo n := by
    refine (parseIteration_parses total (by omega)).bind fun goesOn => ?_
    cases goesOn with
    | false => exact Yields.pure fun _ ended => ended
    | true => exact keeps_upTo (below_keeps (by omega) total.parse)
  intro parser upTo
  rw [parse_eq_iteration]
  exact turns parser upTo

theorem parses_at {α : Type} {token : Token} {command : Parse α} {after : α → SymbolTokenizer → Prop}
    (short : token.str.length ≤ n → Parses (Loaded (some token) n) command after) :
    Parses (Loaded (some token) n) command after := by
  intro parser loaded
  have front := loaded.1.1.look_atFront (look_of_cached loaded.2).1
  exact short (Nat.le_trans (List.IsPrefix.length_le front.2) loaded.1.2) parser loaded

/-- What starts and ends with the quotes of a Microsoft string has both of them. -/
theorem two_le_of_quotes {str : Text} (opens : startsWith str "`".toList = true)
    (closes : endsWith str "'".toList = true) :
    2 ≤ str.length := by
  match str with
  | [] => simp [endsWith] at closes
  | [c] =>
    simp [startsWith] at opens
    simp [endsWith, ← opens] at closes
  | _ :: _ :: _ => simp

theorem acceptLambdaOrUnnamed_succ (total : Total fuel) (enough : 8 * n + 1 ≤ fuel + 1) :
    Parses (UpTo n) (acceptLambdaOrUnnamed (fuel + 1)) fun took => Advanced took n := by
  have signature (tokens : List Token) :
      Parses (Below n) (do discard (consumePunctuation fuel false); closeGccTag tokens) fun took => Advanced took
        n := by
    have consumed : Parses (Below n) (consumePunctuation fuel false) fun _ => Below n :=
      below_keeps (by omega) fun k => total.consumePunctuation k false
    exact (consumed.discard fun _ _ below => below).bind fun _ => closeGccTag_parses tokens
  rw [acceptLambdaOrUnnamed]
  refine (accept_parses _).bind fun brace => ?_
  cases brace with
  | some brace =>
    refine (accept_keeps _).bind fun lambdaToken => ?_
    cases lambdaToken with
    | some lambdaToken => exact signature [lambdaToken]
    | none => exact (expect_keeps _).bind fun unnamedToken => (expect_keeps _).bind fun typeToken => signature _
  | none =>
    refine peek_parses.bind fun token => ?_
    cases token with
    | none => exact acceptMsvcLambda_parses.weaken (fun _ ended => ended.1) fun _ _ after => after
    | some token =>
      refine Yields.ite (fun _ => ?_) fun _ => Yields.ite (fun msvc => ?_) fun _ => ?_
      · refine (advance_loaded_parses token).bind fun _ => parses_onOutput.bind fun _ => ?_
        exact parses_onOutput.bind fun _ => parses_onOutput.bind fun _ => succeeds
      · simp only [Bool.and_eq_true] at msvc
        -- the text inside the quotes is shorter by the two quotes, which pays for the nested call
        have long := two_le_of_quotes msvc.1.2 msvc.2
        refine parses_at fun short => ?_
        obtain ⟨name, pruned⟩ := total.pruneSymbolWith ((token.str.drop 1).take (token.str.length - 2)) <| by
          rw [List.length_take]
          omega
        refine (advance_loaded_parses token).bind fun _ => parses_onOutput.bind fun _ => ?_
        rw [if_neg (Nat.not_lt.mpr long)]
        refine parses_ofExcept pruned <| parses_onOutput.bind fun _ => ?_
        exact parses_onOutput.bind fun _ => succeeds
      · exact acceptMsvcLambda_parses.weaken (fun _ stays => stays.1) fun _ _ after => after

theorem pruneSymbolWith_succ (total : Total fuel) (symbol : Text) (enough : 8 * symbol.length + 6 ≤ fuel + 1) :
    ∃ pruned, pruneSymbolWith (fuel + 1) symbol = .ok pruned := by
  have parsed := total.parse symbol.length (by omega) (SymbolParser.start symbol)
    ⟨coherent_unloaded _, List.IsSuffix.length_le (List.dropWhile_suffix _)⟩
  unfold pruneSymbolWith
  rcases outcome : parse fuel (SymbolParser.start symbol) with ⟨result, parser⟩
  rw [outcome] at parsed
  cases result with
  | ok value => exact ⟨_, rfl⟩
  | error failure =>
    rcases parsed with rfl | rfl
    · exact ⟨symbol, rfl⟩
    · exact ⟨symbol, rfl⟩

end Mutual

/-- By induction on the fuel; no function is asked to go on without any. -/
theorem total (fuel : Nat) : Total fuel := by
  induction fuel with
  | zero =>
    constructor
    all_goals intros
    all_goals omega
  | succ fuel ih =>
    exact {
      consumeBalanced := fun _ => consumeBalanced_succ ih
      consumeBalancedWithin := fun _ => consumeBalancedWithin_succ ih
      acceptBalancedPunctuation := fun _ => acceptBalancedPunctuation_succ ih
      acceptOperator := fun _ => acceptOperator_succ ih
      acceptOperatorPunctuation := fun _ => acceptOperatorPunctuation_succ ih
      consumePunctuation := fun _ => consumePunctuation_succ ih
      acceptLambdaOrUnnamed := fun _ => acceptLambdaOrUnnamed_succ ih
      parseSymbolTerm := fun _ => parseSymbolTerm_succ ih
      consumePunctuationAndTrailingModifiers := fun _ => consumePunctuationAndTrailingModifiers_succ ih
      parseFunctionPointer := fun _ => parseFunctionPointer_succ ih
      parseSymbolBase := fun _ => parseSymbolBase_succ ih
      parseSymbol := fun _ => parseSymbol_succ ih
      parse := fun _ => parse_succ ih
      pruneSymbolWith := pruneSymbolWith_succ ih
    }


section Loop

/-- The states in which a turn of the loop may start, with the fuel that is left there. -/
inductive LoopHead (symbol : Text) (fuel : Nat) : Nat → SymbolParser → Prop
  | start : LoopHead symbol fuel fuel (SymbolParser.start symbol)
  | again {left : Nat} {parser next : SymbolParser} (head : LoopHead symbol fuel (left + 1) parser)
      (goesOn : parseIteration left parser = (.ok true, next)) : LoopHead symbol fuel left next

theorem parseIteration_shrinks {fuel : Nat} {parser next : SymbolParser} (coherent : Coherent parser.tokenizer)
    (enough : 8 * parser.tokenizer.stripped.length + 4 ≤ fuel)
    (goesOn : parseIteration fuel parser = (.ok true, next)) :
    Below parser.tokenizer.stripped.length next.tokenizer := by
  have ran := parseIteration_parses (total fuel) enough parser ⟨coherent, Nat.le_refl _⟩
  rw [goesOn] at ran
  exact ran

theorem LoopHead.enough {symbol : Text} {fuel left : Nat} {parser : SymbolParser}
    (head : LoopHead symbol fuel left parser)
    (started : 8 * symbol.length + 5 ≤ fuel) :
    Coherent parser.tokenizer ∧ 8 * parser.tokenizer.stripped.length + 5 ≤ left := by
  induction head with
  | start =>
    have short := List.IsSuffix.length_le (List.dropWhile_suffix isSpace (l := symbol))
    exact ⟨coherent_unloaded _, Nat.le_trans (Nat.add_le_add_right (Nat.mul_le_mul_left 8 short) 5) started⟩
  | again _ goesOn ih =>
    have below := parseIteration_shrinks ih.1 (by omega) goesOn
    exact ⟨below.1, by have := below.2; omega⟩

/-- Every text has a result, the same one for all fuel that is enough, so no check of the parser fails and no
call runs on for ever; a token can only fail to load with a parse error; each turn of the loop that goes on
has taken a token. -/
theorem pruneSymbol_total (symbol : Text) :
    (∃ pruned, Detail.pruneSymbol symbol = .ok pruned ∧
      ∀ fuel other, pruneSymbolWith fuel symbol = .ok other → other = pruned) ∧
    (∀ tokenizer : SymbolTokenizer, Reports (maybeLoadNextToken tokenizer).1) ∧
    ∀ fuel left parser next, 8 * symbol.length + 5 ≤ fuel → LoopHead symbol fuel (left + 1) parser →
      parseIteration left parser = (.ok true, next) →
      next.tokenizer.stripped.length < parser.tokenizer.stripped.length := by
  refine ⟨?_, ?_, ?_⟩
  · obtain ⟨pruned, ran⟩ := (total (fuelFor symbol)).pruneSymbolWith symbol (by unfold fuelFor; omega)
    exact ⟨pruned, ran, fun fuel other ran' => pruneSymbolWith_unique ran' ran⟩
  · intro tokenizer
    rw [maybeLoadNextToken_eq]
    exact (look_reports tokenizer).bind fun _ _ => reports_ok _
  · intro fuel left parser next started head goesOn
    have invariant := head.enough started
    exact (parseIteration_shrinks invariant.1 (by omega) goesOn).2

end Loop

end Cpptrace.PruneSymbol
