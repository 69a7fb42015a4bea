import Cpptrace.PruneSymbol.Parser

/-! More fuel makes no difference to a call that does not run out of it. -/

set_option autoImplicit false

namespace Cpptrace.PruneSymbol

open Library SymbolTokenizer

abbrev Refines {σ α : Type} (command finer : Command Failure σ α) : Prop := Approximates Failure.outOfFuel command finer

section Loops

theorem acceptPointerRef_refines (append : Bool) (fuel : Nat) (matched : Bool) :
    Refines (acceptPointerRef append fuel matched) (acceptPointerRef append (fuel + 1) matched) := by
  induction fuel generalizing matched with
  | zero => exact .throw _
  | succ fuel ih =>
    refine (Approximates.refl _).bind fun token => ?_
    cases token with
    | none => exact .refl _
    | some token =>
      have goesOn := (Approximates.refl (dropResult (onTokenizer advance))).bind fun _ => ih true
      refine .ite ?_ (.refl _)
      cases append with
      | true => exact (Approximates.refl _).bind fun _ => goesOn
      | false => exact goesOn

theorem lookaheadSign_refines (fuel : Nat) : Refines (lookaheadSign fuel) (lookaheadSign (fuel + 1)) := by
  induction fuel with
  | zero => exact .throw _
  | succ fuel ih =>
    refine (Approximates.refl _).bind fun token => ?_
    cases token with
    | none => exact .refl _
    | some token => exact .ite (.refl _) (.ite ih (.refl _))

theorem functionPointerAhead_refines (fuel : Nat) :
    Refines (functionPointerAhead fuel) (functionPointerAhead (fuel + 1)) := by
  refine (Approximates.refl _).bind fun token => ?_
  cases token with
  | none => exact .refl _
  | some token => exact lookaheadSign_refines fuel

theorem lookaheadIsFunctionPointer_refines (fuel : Nat) :
    Refines (lookaheadIsFunctionPointer fuel) (lookaheadIsFunctionPointer (fuel + 1)) := by
  intro parser
  unfold lookaheadIsFunctionPointer
  rw [Command.bind_apply, Command.bind_apply, Command.get_apply]
  rcases functionPointerAhead_refines fuel parser.tokenizer with stops | same
  · left
    dsimp only
    rw [stops]
    rfl
  · right
    dsimp only
    rw [same]

theorem skipFunctionPointerModifiers_refines (fuel : Nat) (sawPointer : Bool) :
    Refines (skipFunctionPointerModifiers fuel sawPointer) (skipFunctionPointerModifiers (fuel + 1) sawPointer) := by
  induction fuel generalizing sawPointer with
  | zero => exact .throw _
  | succ fuel ih =>
    refine (Approximates.refl _).bind fun token => ?_
    cases token with
    | none => exact .refl _
    | some token =>
      have skips := fun saw => (Approximates.refl (dropResult (onTokenizer advance))).bind fun _ => ih saw
      exact .ite (skips true) (.ite (skips sawPointer) (.refl _))

end Loops

structure MoreFuel (fuel : Nat) : Prop where
  consumeBalanced : ∀ opening, Refines (consumeBalanced fuel opening) (consumeBalanced (fuel + 1) opening)
  consumeBalancedWithin : ∀ opening closing depth,
    Refines (consumeBalancedWithin fuel opening closing depth) (consumeBalancedWithin (fuel + 1) opening closing depth)
  acceptBalancedPunctuation : Refines (acceptBalancedPunctuation fuel) (acceptBalancedPunctuation (fuel + 1))
  acceptOperator : ∀ flag, Refines (acceptOperator fuel flag) (acceptOperator (fuel + 1) flag)
  acceptOperatorPunctuation : ∀ flag,
    Refines (acceptOperatorPunctuation fuel flag) (acceptOperatorPunctuation (fuel + 1) flag)
  consumePunctuation :
    ∀ didConsume, Refines (consumePunctuation fuel didConsume) (consumePunctuation (fuel + 1) didConsume)
  acceptLambdaOrUnnamed : Refines (acceptLambdaOrUnnamed fuel) (acceptLambdaOrUnnamed (fuel + 1))
  parseSymbolTerm : Refines (parseSymbolTerm fuel) (parseSymbolTerm (fuel + 1))
  consumePunctuationAndTrailingModifiers : ∀ didConsume,
    Refines (consumePunctuationAndTrailingModifiers fuel didConsume)
      (consumePunctuationAndTrailingModifiers (fuel + 1) didConsume)
  parseFunctionPointer : Refines (parseFunctionPointer fuel) (parseFunctionPointer (fuel + 1))
  parseSymbolBase : Refines (parseSymbolBase fuel) (parseSymbolBase (fuel + 1))
  parseSymbol : ∀ madeProgress, Refines (parseSymbol fuel madeProgress) (parseSymbol (fuel + 1) madeProgress)
  parse : Refines (parse fuel) (parse (fuel + 1))
  pruneSymbolWith : ∀ symbol,
    pruneSymbolWith fuel symbol = .error .outOfFuel ∨ pruneSymbolWith fuel symbol = pruneSymbolWith (fuel + 1) symbol

section Mutual

variable {fuel : Nat} (more : MoreFuel fuel)
include more

theorem consumeBalanced_refines (opening : Text) :
    Refines (consumeBalanced (fuel + 1) opening) (consumeBalanced (fuel + 2) opening) := by
  rw [consumeBalanced, consumeBalanced]
  exact (Approximates.refl _).bind fun closing => more.consumeBalancedWithin opening closing 1

theorem consumeBalancedWithin_refines (opening closing : Text) (depth : Nat) :
    Refines (consumeBalancedWithin (fuel + 1) opening closing depth)
      (consumeBalancedWithin (fuel + 2) opening closing depth) := by
  have again := more.consumeBalancedWithin opening closing
  rw [consumeBalancedWithin, consumeBalancedWithin]
  refine .ite (.refl _) (.ite_bind (.ite (more.acceptOperator true) (.refl _)) fun accepted => .ite (again depth) ?_)
  refine (Approximates.refl _).bind fun next => ?_
  cases next with
  | none => exact .refl _
  | some next =>
    have nested := (more.consumeBalanced next.str).discard.bind fun _ => again depth
    exact .ite (again _) (.ite (again _) (.ite (again _) (.ite nested (again _))))

theorem acceptBalancedPunctuation_refines :
    Refines (acceptBalancedPunctuation (fuel + 1)) (acceptBalancedPunctuation (fuel + 2)) := by
  rw [acceptBalancedPunctuation, acceptBalancedPunctuation]
  refine (Approximates.refl _).bind fun token => ?_
  cases token with
  | none => exact .refl _
  | some token =>
    exact .ite ((Approximates.refl _).bind fun _ => (more.consumeBalanced _).discard.bind fun _ => .refl _) (.refl _)

theorem acceptOperator_refines (flag : Bool) :
    Refines (acceptOperator (fuel + 1) flag) (acceptOperator (fuel + 2) flag) := by
  rw [acceptOperator, acceptOperator]
  refine (Approximates.refl _).bind fun token => ?_
  cases token with
  | none => exact .refl _
  | some token =>
    refine .ite (more.acceptOperatorPunctuation flag) ((Approximates.refl _).bind fun _ => ?_)
    refine (Approximates.refl _).bind fun _ => .ite (.refl _) ((Approximates.refl _).bind fun _ => .ite (.refl _) ?_)
    refine (Approximates.refl _).bind fun coawait => ?_
    cases coawait with
    | some coawait => exact .refl _
    | none =>
      refine (Approximates.refl _).bind fun literal => ?_
      cases literal with
      | some literal => exact .refl _
      | none => exact more.acceptOperatorPunctuation flag

theorem acceptOperatorPunctuation_refines (flag : Bool) :
    Refines (acceptOperatorPunctuation (fuel + 1) flag) (acceptOperatorPunctuation (fuel + 2) flag) := by
  rw [acceptOperatorPunctuation, acceptOperatorPunctuation]
  refine (Approximates.refl _).bind fun op => ?_
  cases op with
  | some op => exact .refl _
  | none =>
    refine .ite (.refl _) ((more.parseSymbol false).discard.bind fun _ => (Approximates.refl _).bind fun next => ?_)
    cases next with
    | none => exact .refl _
    | some next => exact .ite ((more.parseSymbol false).discard.bind fun _ => .refl _) (.refl _)

theorem consumePunctuation_refines (didConsume : Bool) :
    Refines (consumePunctuation (fuel + 1) didConsume) (consumePunctuation (fuel + 2) didConsume) := by
  rw [consumePunctuation, consumePunctuation]
  refine (Approximates.refl _).bind fun token => ?_
  cases token with
  | none => exact .refl _
  | some token =>
    refine .ite (more.acceptBalancedPunctuation.bind fun _ => .ite (more.consumePunctuation true) ?_) (.refl _)
    exact (Approximates.refl _).bind fun _ => more.consumePunctuation true

theorem acceptLambdaOrUnnamed_refines :
    Refines (acceptLambdaOrUnnamed (fuel + 1)) (acceptLambdaOrUnnamed (fuel + 2)) := by
  rw [acceptLambdaOrUnnamed, acceptLambdaOrUnnamed]
  have signature (tokens : List Token) : Refines (do discard (consumePunctuation fuel false); closeGccTag tokens)
      (do discard (consumePunctuation (fuel + 1) false); closeGccTag tokens) :=
    (more.consumePunctuation false).discard.bind fun _ => .refl _
  refine (Approximates.refl _).bind fun brace => ?_
  cases brace with
  | some brace =>
    refine (Approximates.refl _).bind fun lambdaToken => ?_
    cases lambdaToken with
    | some lambdaToken => exact signature [lambdaToken]
    | none => exact (Approximates.refl _).bind fun _ => (Approximates.refl _).bind fun _ => signature _
  | none =>
    refine (Approximates.refl _).bind fun token => ?_
    cases token with
    | none => exact .refl _
    | some token =>
      refine .ite (.refl _)
        (.ite ((Approximates.refl _).bind fun _ => (Approximates.refl _).bind fun _ => ?_) (.refl _))
      have inner : Refines
          (MonadExcept.ofExcept (pruneSymbolWith fuel ((token.str.drop 1).take (token.str.length - 2))) : Parse Text)
          (MonadExcept.ofExcept (pruneSymbolWith (fuel + 1) ((token.str.drop 1).take (token.str.length - 2)))) := by
        intro parser
        rw [Command.ofExcept_apply, Command.ofExcept_apply]
        rcases more.pruneSymbolWith ((token.str.drop 1).take (token.str.length - 2)) with stops | same
        · exact .inl stops
        · exact .inr (congrArg (·, parser) same)
      exact .ite (.refl _) (inner.bind fun _ => .refl _)

theorem parseSymbolTerm_refines : Refines (parseSymbolTerm (fuel + 1)) (parseSymbolTerm (fuel + 2)) := by
  rw [parseSymbolTerm, parseSymbolTerm]
  refine (Approximates.refl _).bind fun _ =>
    .ite (.refl _) ((more.acceptOperator false).bind fun _ => .ite (.refl _) ?_)
  exact (Approximates.refl _).bind fun _ => .ite (.refl _) more.acceptLambdaOrUnnamed

theorem consumePunctuationAndTrailingModifiers_refines (didConsume : Bool) :
    Refines (consumePunctuationAndTrailingModifiers (fuel + 1) didConsume)
      (consumePunctuationAndTrailingModifiers (fuel + 2) didConsume) := by
  have again := more.consumePunctuationAndTrailingModifiers true
  rw [consumePunctuationAndTrailingModifiers, consumePunctuationAndTrailingModifiers]
  refine (Approximates.refl _).bind fun token => ?_
  cases token with
  | none => exact .refl _
  | some token =>
    refine more.acceptBalancedPunctuation.bind fun _ => .ite again ((Approximates.refl _).bind fun _ => .ite again ?_)
    exact (acceptPointerRef_refines false fuel false).bind fun _ => .ite again (.refl _)

theorem parseFunctionPointer_refines : Refines (parseFunctionPointer (fuel + 1)) (parseFunctionPointer (fuel + 2)) := by
  rw [parseFunctionPointer, parseFunctionPointer]
  refine (lookaheadIsFunctionPointer_refines fuel).bind fun ahead => ?_
  cases ahead with
  | false => exact .refl _
  | true =>
    refine (Approximates.refl (onTokenizer (accept (.punctuation "(")))).bind fun opening => ?_
    cases opening with
    | none => exact .refl _
    | some opening =>
      refine (skipFunctionPointerModifiers_refines fuel false).bind fun _ => .ite ?_ (.refl _)
      exact (Approximates.refl _).bind fun _ => (more.parseSymbol false).bind fun _ => .refl _

theorem parseSymbolBase_refines : Refines (parseSymbolBase (fuel + 1)) (parseSymbolBase (fuel + 2)) := by
  rw [parseSymbolBase, parseSymbolBase]
  refine more.parseSymbolTerm.bind fun _ => (lookaheadIsFunctionPointer_refines fuel).bind fun _ => .ite ?_ (.refl _)
  exact more.parseFunctionPointer.bind fun _ => .refl _

theorem parseSymbol_refines (madeProgress : Bool) :
    Refines (parseSymbol (fuel + 1) madeProgress) (parseSymbol (fuel + 2) madeProgress) := by
  rw [parseSymbol, parseSymbol]
  refine (Approximates.refl _).bind fun token => ?_
  cases token with
  | none => exact .refl _
  | some token =>
    refine more.parseSymbolBase.bind fun _ => .ite ?_ (.refl _)
    refine (acceptPointerRef_refines true fuel false).discard.bind fun _ => ?_
    refine (more.consumePunctuationAndTrailingModifiers false).discard.bind fun _ => ?_
    exact (Approximates.refl _).bind fun _ => .ite (more.parseSymbol true) (.refl _)

theorem parse_refines : Refines (parse (fuel + 1)) (parse (fuel + 2)) := by
  rw [parse, parse]
  refine (Approximates.refl _).bind fun token => ?_
  cases token with
  | none => exact .refl _
  | some token =>
    exact (Approximates.refl _).bind fun _ => (more.parseSymbol false).bind fun _ => .ite more.parse (.refl _)

theorem pruneSymbolWith_refines (symbol : Text) :
    pruneSymbolWith (fuel + 1) symbol = .error .outOfFuel ∨
      pruneSymbolWith (fuel + 1) symbol = pruneSymbolWith (fuel + 2) symbol := by
  unfold pruneSymbolWith
  rcases more.parse (SymbolParser.start symbol) with stops | same
  · left
    rcases ran : parse fuel (SymbolParser.start symbol) with ⟨outcome, parser⟩
    rw [ran] at stops
    obtain rfl : outcome = .error .outOfFuel := stops
    rfl
  · right
    rw [same]

end Mutual

theorem moreFuel (fuel : Nat) : MoreFuel fuel := by
  induction fuel with
  | zero =>
    constructor
    case pruneSymbolWith => exact fun _ => .inl rfl
    all_goals intros; exact .throw _
  | succ fuel ih =>
    exact {
      consumeBalanced := consumeBalanced_refines ih
      consumeBalancedWithin := consumeBalancedWithin_refines ih
      acceptBalancedPunctuation := acceptBalancedPunctuation_refines ih
      acceptOperator := acceptOperator_refines ih
      acceptOperatorPunctuation := acceptOperatorPunctuation_refines ih
      consumePunctuation := consumePunctuation_refines ih
      acceptLambdaOrUnnamed := acceptLambdaOrUnnamed_refines ih
      parseSymbolTerm := parseSymbolTerm_refines ih
      consumePunctuationAndTrailingModifiers := consumePunctuationAndTrailingModifiers_refines ih
      parseFunctionPointer := parseFunctionPointer_refines ih
      parseSymbolBase := parseSymbolBase_refines ih
      parseSymbol := parseSymbol_refines ih
      parse := parse_refines ih
      pruneSymbolWith := pruneSymbolWith_refines ih
    }

theorem pruneSymbolWith_add (symbol pruned : Text) (fuel more : Nat) (ran : pruneSymbolWith fuel symbol = .ok pruned) :
    pruneSymbolWith (fuel + more) symbol = .ok pruned := by
  induction more with
  | zero => exact ran
  | succ more ih =>
    rcases (moreFuel (fuel + more)).pruneSymbolWith symbol with stops | same
    · rw [ih] at stops
      cases stops
    · exact same.symm.trans ih

theorem pruneSymbolWith_unique {symbol pruned pruned' : Text} {fuel fuel' : Nat}
    (ran : pruneSymbolWith fuel symbol = .ok pruned)
    (ran' : pruneSymbolWith fuel' symbol = .ok pruned') : pruned = pruned' := by
  have first := pruneSymbolWith_add symbol pruned fuel fuel' ran
  have second := pruneSymbolWith_add symbol pruned' fuel' fuel ran'
  rw [Nat.add_comm, second] at first
  exact (Except.ok.inj first).symm

end Cpptrace.PruneSymbol
