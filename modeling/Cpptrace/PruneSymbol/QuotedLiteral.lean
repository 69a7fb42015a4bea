import Cpptrace.PruneSymbol.Tokenizer

/-! Quoted literals and the usual rule for escapes.

At a backslash the scan moves its cursor by three characters, where an escape has two.
So it passes a character without a look at it, and what it makes of a literal depends
on which characters these are.
-/

set_option autoImplicit false

namespace Cpptrace.PruneSymbol

open Library Library.Outcome

inductive Quote where
  | single
  | double
  deriving DecidableEq, Repr

def Quote.char : Quote → Char
  | single => '\''
  | double => '"'

section Rule

variable (quote : Char)

inductive Body : Text → Prop where
  | nil : Body []
  | plain {c : Char} {rest : Text} : c ≠ quote → c ≠ '\\' → Body rest → Body (c :: rest)
  | escape {c : Char} {rest : Text} : Body rest → Body ('\\' :: c :: rest)

def IsQuoted (str : Text) : Prop := ∃ body, Body quote body ∧ str = quote :: (body ++ [quote])

structure Shortest (source str : Text) : Prop where
  quoted : IsQuoted quote str
  atFront : str <+: source
  least : ∀ other, IsQuoted quote other → other <+: source → str.length ≤ other.length

/-- The literal is the shortest one at the front of the source. There is an error if there is none,
and no read beyond the end. -/
def LexedByRule (source : Text) : Prop :=
  match parseQuotedString source with
  | .ok (some token) => token.type = .literal ∧ Shortest quote source token.str
  | .ok none => False
  | .error .parseError => ∀ str, IsQuoted quote str → ¬ str <+: source
  | .error _ => False

def scanByRule : (escaped : Bool) → Text → Except Failure Text
  | _, [] => throw .parseError
  | true, c :: rest => (c :: ·) <$> scanByRule false rest
  | false, c :: rest => if c = quote then pure [c] else (c :: ·) <$> scanByRule (c = '\\') rest

/-- The scan of the source, before it passes some characters that it does not look at. -/
def scanPassing : (passed : Nat) → Text → Except Failure Text
  | 0, source => scanQuotedString quote source
  | 1, [] => throw .readPastEnd
  | _ + 2, [] => throw .parseError
  | passed + 1, c :: rest => (c :: ·) <$> scanPassing passed rest

/-- The rule and the scan read on together. The scan is about to pass some characters, and the rule may
stand behind a backslash: no character that closes the literal for one of them may be passed or
escaped for the other, and the scan may not pass the end. -/
def keepsUp : (passed : Nat) → (escaped : Bool) → Text → Bool
  | passed, _, [] => passed ≠ 1
  | 0, false, c :: rest => c = quote || keepsUp (if c = '\\' then 2 else 0) (c = '\\') rest
  | 0, true, c :: rest => c ≠ quote && keepsUp (if c = '\\' then 2 else 0) false rest
  | passed + 1, false, c :: rest => c ≠ quote && keepsUp passed (c = '\\') rest
  | passed + 1, true, _ :: rest => keepsUp passed false rest

end Rule

section Scans

variable {quote : Char}

theorem scanQuotedString_cons (c : Char) (rest : Text) :
    scanQuotedString quote (c :: rest) =
      if c = quote then pure [c] else (c :: ·) <$> scanPassing quote (if c = '\\' then 2 else 0) rest := by
  rw [scanQuotedString.eq_def]
  dsimp only
  split
  · rfl
  · split
    · cases rest with
      | nil => rfl
      | cons escaped rest =>
        cases rest with
        | nil => rfl
        | cons skipped rest =>
          dsimp only [scanPassing]
          generalize scanQuotedString quote rest = scanned
          cases scanned <;> rfl
    · rfl

theorem cons_map_eq_iff (c : Char) (first second : Except Failure Text) :
    (c :: ·) <$> first = (c :: ·) <$> second ↔ first = second := by
  refine ⟨fun same => ?_, congrArg _⟩
  cases first with
  | error failure =>
    cases second with
    | error other => exact congrArg _ (Except.error.inj same)
    | ok other => cases same
  | ok str =>
    cases second with
    | error other => cases same
    | ok other => exact congrArg _ (List.cons.inj (Except.ok.inj same)).2

theorem cons_map_ne {outcome : Except Failure Text} (nonempty : outcome ≠ .ok []) (c : Char) :
    (c :: ·) <$> outcome ≠ .ok [c] := by
  cases outcome with
  | error failure => exact nofun
  | ok str =>
    intro same
    exact nonempty (congrArg _ (List.cons.inj (Except.ok.inj same)).2)

theorem map_cons_ne_nil (c : Char) (outcome : Except Failure Text) : (c :: ·) <$> outcome ≠ .ok [] := by
  cases outcome with
  | error failure => exact nofun
  | ok str => exact nofun

theorem scanByRule_ne_nil (escaped : Bool) (source : Text) : scanByRule quote escaped source ≠ .ok [] := by
  cases source with
  | nil => exact nofun
  | cons c rest =>
    cases escaped with
    | true => exact map_cons_ne_nil c _
    | false =>
      rw [scanByRule]
      split
      · exact nofun
      · exact map_cons_ne_nil c _

theorem scanPassing_ne_nil (passed : Nat) (source : Text) : scanPassing quote passed source ≠ .ok [] := by
  match passed, source with
  | 0, [] => exact nofun
  | 0, c :: rest =>
    rw [scanPassing, scanQuotedString_cons]
    split
    · exact nofun
    · exact map_cons_ne_nil c _
  | 1, [] => exact nofun
  | _ + 2, [] => exact nofun
  | passed + 1, c :: rest =>
    rw [scanPassing]
    exact map_cons_ne_nil c _

/-- The induction is on the source; the rule and the scan take a character each. -/
theorem scanPassing_eq_iff (passed : Nat) (escaped : Bool) (source : Text) :
    scanPassing quote passed source = scanByRule quote escaped source ↔ keepsUp quote passed escaped source = true := by
  induction source generalizing passed escaped with
  | nil =>
    match passed with
    | 0 => simp [scanPassing, scanQuotedString, scanByRule, keepsUp]
    | 1 => simp [scanPassing, scanByRule, keepsUp, throw, throwThe, MonadExceptOf.throw]
    | _ + 2 => simp [scanPassing, scanByRule, keepsUp]
  | cons c rest ih =>
    match passed, escaped with
    | 0, false =>
      rw [scanPassing, scanQuotedString_cons, scanByRule, keepsUp]
      by_cases closes : c = quote
      · simp [closes]
      · simp only [closes, if_false, decide_false, Bool.false_or]
        rw [cons_map_eq_iff, ih]
    | 0, true =>
      -- an escaped quote, at which the scan stops and the rule goes on
      rw [scanPassing, scanQuotedString_cons, scanByRule, keepsUp]
      by_cases closes : c = quote
      · have unfinished : scanByRule quote false rest ≠ .ok [] := scanByRule_ne_nil false rest
        have differ := (cons_map_ne unfinished quote).symm
        simpa [closes, pure, Except.pure] using differ
      · simp only [closes, if_false, decide_not, decide_false, Bool.not_false, Bool.true_and]
        rw [cons_map_eq_iff, ih]
    | passed + 1, false =>
      -- a quote that ends the literal, and the scan passes it
      rw [scanPassing, scanByRule, keepsUp]
      by_cases closes : c = quote
      · have unfinished : scanPassing quote passed rest ≠ .ok [] := scanPassing_ne_nil passed rest
        have differ := cons_map_ne unfinished quote
        simpa [closes, pure, Except.pure] using differ
      · simp only [closes, if_false, decide_not, decide_false, Bool.not_false, Bool.true_and]
        rw [cons_map_eq_iff, ih]
    | passed + 1, true =>
      rw [scanPassing, scanByRule, keepsUp, cons_map_eq_iff, ih]

end Scans

section Literals

variable {quote : Char}

theorem scanByRule_failure {escaped : Bool} {source : Text} {failure : Failure}
    (fails : scanByRule quote escaped source = .error failure) : failure = .parseError := by
  induction source generalizing escaped with
  | nil =>
    rw [scanByRule] at fails
    exact (Except.error.inj fails).symm
  | cons c rest ih =>
    have within {escaped : Bool} (fails : (c :: ·) <$> scanByRule quote escaped rest = .error failure) :
        failure = .parseError := by
      cases scanned : scanByRule quote escaped rest with
      | ok str =>
        rw [scanned] at fails
        cases fails
      | error other =>
        rw [scanned] at fails
        obtain rfl := Except.error.inj fails
        exact ih scanned
    cases escaped with
    | true => exact within fails
    | false =>
      rw [scanByRule] at fails
      split at fails
      · cases fails
      · exact within fails

/-- What the rule reads from the inside of a literal on, and behind a backslash. -/
theorem scanByRule_sound {escaped : Bool} {source str : Text} (scanned : scanByRule quote escaped source = .ok str) :
    str <+: source ∧
      if escaped then ∃ c body, Body quote body ∧ str = c :: (body ++ [quote])
      else ∃ body, Body quote body ∧ str = body ++ [quote] := by
  -- `escaped` is general: behind a backslash the next character is read without a rule
  induction source generalizing escaped str with
  | nil =>
    rw [scanByRule] at scanned
    cases scanned
  | cons c rest ih =>
    have within {escaped : Bool} (scanned : (c :: ·) <$> scanByRule quote escaped rest = .ok str) :
        ∃ tail, scanByRule quote escaped rest = .ok tail ∧ str = c :: tail := by
      cases outcome : scanByRule quote escaped rest with
      | error failure =>
        rw [outcome] at scanned
        cases scanned
      | ok tail =>
        rw [outcome] at scanned
        exact ⟨tail, rfl, (Except.ok.inj scanned).symm⟩
    cases escaped with
    | true =>
      obtain ⟨tail, found, rfl⟩ := within scanned
      obtain ⟨front, body, valid, rfl⟩ := ih found
      exact ⟨List.cons_prefix_cons.mpr ⟨rfl, front⟩, c, body, valid, rfl⟩
    | false =>
      rw [scanByRule] at scanned
      by_cases closes : c = quote
      · rw [if_pos closes] at scanned
        obtain rfl := (Except.ok.inj scanned).symm
        exact ⟨by simp, [], .nil, by simp [closes]⟩
      · rw [if_neg closes] at scanned
        obtain ⟨tail, found, rfl⟩ := within scanned
        refine ⟨List.cons_prefix_cons.mpr ⟨rfl, (ih found).1⟩, ?_⟩
        by_cases escape : c = '\\'
        · rw [decide_eq_true escape] at found
          obtain ⟨-, escaped, body, valid, rfl⟩ := ih found
          exact ⟨'\\' :: escaped :: body, .escape valid, by simp [escape]⟩
        · rw [decide_eq_false escape] at found
          obtain ⟨-, body, valid, rfl⟩ := ih found
          exact ⟨c :: body, .plain closes escape valid, rfl⟩

theorem scanByRule_complete (noBackslash : quote ≠ '\\') {body : Text} (valid : Body quote body) (rest : Text) :
    scanByRule quote false (body ++ quote :: rest) = .ok (body ++ [quote]) := by
  induction valid with
  | nil =>
    rw [List.nil_append, scanByRule, if_pos rfl]
    rfl
  | plain closes escape valid ih =>
    rw [List.cons_append, scanByRule, if_neg closes, decide_eq_false escape, ih]
    rfl
  | escape valid ih =>
    rw [List.cons_append, List.cons_append, scanByRule, if_neg noBackslash.symm, decide_eq_true rfl, scanByRule, ih]
    rfl

/-- A literal at the front of a source is what the rule reads. -/
theorem scanByRule_of_isQuoted (noBackslash : quote ≠ '\\') {rest str : Text} (quoted : IsQuoted quote str)
    (front : str <+: quote :: rest) : ∃ tail, str = quote :: tail ∧ scanByRule quote false rest = .ok tail := by
  obtain ⟨body, valid, rfl⟩ := quoted
  obtain ⟨behind, rfl⟩ := (List.cons_prefix_cons.mp front).2
  refine ⟨body ++ [quote], rfl, ?_⟩
  rw [List.append_assoc]
  exact scanByRule_complete noBackslash valid behind

theorem shortest_of_scanByRule (noBackslash : quote ≠ '\\') {rest tail : Text}
    (scanned : scanByRule quote false rest = .ok tail) : Shortest quote (quote :: rest) (quote :: tail) := by
  obtain ⟨front, body, valid, rfl⟩ := scanByRule_sound scanned
  refine ⟨⟨body, valid, rfl⟩, List.cons_prefix_cons.mpr ⟨rfl, front⟩, fun other quoted within => ?_⟩
  obtain ⟨tail, rfl, found⟩ := scanByRule_of_isQuoted noBackslash quoted within
  rw [Except.ok.inj (scanned.symm.trans found)]

theorem parseQuotedString_cons (opens : quote = '\'' ∨ quote = '"') (rest : Text) :
    parseQuotedString (quote :: rest) = (fun str => some ⟨.literal, quote :: str⟩) <$> scanQuotedString quote rest := by
  have isQuote : (quote = '\'' || quote = '"') = true := by simpa using opens
  rw [parseQuotedString]
  simp only [isQuote, if_true]
  rfl

theorem lexedByRule_iff_scan (opens : quote = '\'' ∨ quote = '"') (rest : Text) :
    LexedByRule quote (quote :: rest) ↔ scanQuotedString quote rest = scanByRule quote false rest := by
  have noBackslash : quote ≠ '\\' := by
    rcases opens with rfl | rfl <;> decide
  rw [LexedByRule, parseQuotedString_cons opens]
  cases scanned : scanQuotedString quote rest with
  | ok tail =>
    refine ⟨fun ⟨_, shortest⟩ => ?_, fun same => ⟨rfl, shortest_of_scanByRule noBackslash same.symm⟩⟩
    obtain ⟨other, same, found⟩ := scanByRule_of_isQuoted noBackslash shortest.quoted shortest.atFront
    rw [found, (List.cons.inj same).2]
  | error failure =>
    by_cases reported : failure = .parseError
    · subst reported
      refine ⟨fun none => ?_, fun same str quoted front => ?_⟩
      · cases outcome : scanByRule quote false rest with
        | ok tail =>
          have shortest := shortest_of_scanByRule noBackslash outcome
          exact absurd shortest.atFront (none _ shortest.quoted)
        | error other => rw [scanByRule_failure outcome]
      · obtain ⟨tail, -, found⟩ := scanByRule_of_isQuoted noBackslash quoted front
        exact nomatch same.trans found
    · refine ⟨fun holds => ?_, fun same => absurd (scanByRule_failure same.symm) reported⟩
      cases failure with
      | parseError => exact absurd rfl reported
      | readPastEnd => exact holds.elim
      | exception thrown => exact holds.elim
      | outOfFuel => exact holds.elim

end Literals

/-- A quoted literal is lexed by the rule just where the cursor of the scan keeps up with the rule. -/
theorem lexedByRule_iff (quote : Quote) (rest : Text) :
    LexedByRule quote.char (quote.char :: rest) ↔ keepsUp quote.char 0 false rest = true := by
  have opens : quote.char = '\'' ∨ quote.char = '"' := by
    cases quote
    · exact .inl rfl
    · exact .inr rfl
  rw [lexedByRule_iff_scan opens, ← scanPassing_eq_iff]
  rfl

/-- The character literal of a single quote. -/
theorem lexedByRule_fails : ¬ LexedByRule '\'' "'\\''".toList := by
  intro lexed
  have scanned := (lexedByRule_iff_scan (.inl rfl) _).mp lexed
  revert scanned
  decide

end Cpptrace.PruneSymbol
