import Mathlib.Data.List.TakeWhile
import BlockchainOps.Algo.TransactionGroup

/-!
# Sequences of builder calls

What a sequence of calls asks of the group builder, stated without the builder: `legsOf` gives the
legs, each with the last options before the next leg, and `misuse` says what is wrong with a call
after those before it. The builder has the legs (`built_legs`) and reports the first misuse
(`built_error_eq_some_iff`).
-/

namespace BlockchainOps.Algo

/-- A call of the builder. -/
inductive BuilderCall
  | payment (toAddress : String) (microAlgos : ℕ)
  | assetTransfer (assetId amount : ℕ) (toAddress : String)
  | callApp (appId : ℕ) (method : Option String) (args : List AppArg)
  | callAppRawArgs (appId : ℕ) (method : Option String) (args : List AppArg)
  | callAppArc4Args (appId : ℕ) (method : Option String) (args : List AppArg)
  | foreignAsset (assetId : ℕ)
  | foreignApp (foreignAppId : ℕ)
deriving DecidableEq, Repr

/-- Make a call. -/
def TransactionGroupBuilder.apply (b : TransactionGroupBuilder) :
    BuilderCall → TransactionGroupBuilder
  | .payment toAddress microAlgos => b.payment toAddress microAlgos
  | .assetTransfer assetId amount toAddress => b.assetTransfer assetId amount toAddress
  | .callApp appId method args => b.callApp appId method args
  | .callAppRawArgs appId method args => b.callAppRawArgs appId method args
  | .callAppArc4Args appId method args => b.callAppArc4Args appId method args
  | .foreignAsset assetId => b.foreignAsset assetId
  | .foreignApp foreignAppId => b.foreignApp foreignAppId

/-- The builder after a sequence of calls. -/
def built (calls : List BuilderCall) : TransactionGroupBuilder :=
  calls.foldl TransactionGroupBuilder.apply transactionGroup

theorem built_concat (calls : List BuilderCall) (call : BuilderCall) :
    built (calls ++ [call]) = (built calls).apply call := by
  unfold built
  rw [List.foldl_concat]

/-! ## The legs that are asked for -/

def GroupLeg.isCall : GroupLeg → Bool
  | .appCall .. => true
  | .payment .. | .assetTransfer .. => false

namespace BuilderCall

/-- The leg that a call adds, without options. Arguments that cannot be framed stay as they are. -/
def leg : BuilderCall → Option GroupLeg
  | payment toAddress microAlgos => some (.payment toAddress microAlgos)
  | assetTransfer assetId amount toAddress => some (.assetTransfer assetId amount toAddress)
  | callApp appId method args | callAppRawArgs appId method args =>
    some (.appCall appId method args none none)
  | callAppArc4Args appId method args =>
    some (.appCall appId method ((arc4FrameArgs method args).toOption.getD args) none none)
  | foreignAsset _ | foreignApp _ => none

/-- The foreign asset that an option gives. -/
def asset : BuilderCall → Option ℕ
  | foreignAsset assetId => some assetId
  | _ => none

/-- The foreign application that an option gives. -/
def app : BuilderCall → Option ℕ
  | foreignApp foreignAppId => some foreignAppId
  | _ => none

end BuilderCall

/-- A leg with the last foreign asset and the last foreign application among its options. -/
def GroupLeg.withOptions (options : List BuilderCall) : GroupLeg → GroupLeg
  | .appCall appId method args foreignAsset foreignApp =>
    .appCall appId method args ((options.filterMap BuilderCall.asset).getLast?.or foreignAsset)
      ((options.filterMap BuilderCall.app).getLast?.or foreignApp)
  | leg => leg

/-- The options at the start of a sequence, up to the next leg. -/
def options (calls : List BuilderCall) : List BuilderCall :=
  calls.takeWhile fun call => call.leg.isNone

/-- One leg for each call that adds one, in order, with the options given before the next. -/
def legsOf : List BuilderCall → List GroupLeg
  | [] => []
  | call :: calls => (call.leg.map (GroupLeg.withOptions (options calls))).toList ++ legsOf calls

theorem GroupLeg.withOptions_nil (leg : GroupLeg) : leg.withOptions [] = leg := by
  cases leg <;> rfl

/-- Later options override earlier ones. -/
theorem GroupLeg.withOptions_append (earlier later : List BuilderCall) (leg : GroupLeg) :
    leg.withOptions (earlier ++ later) = (leg.withOptions earlier).withOptions later := by
  cases leg with
  | appCall appId method args foreignAsset foreignApp =>
    unfold withOptions
    simp only [List.filterMap_append, List.getLast?_append, Option.or_assoc]
  | payment | assetTransfer => rfl

theorem GroupLeg.isCall_withOptions (options : List BuilderCall) (leg : GroupLeg) :
    (leg.withOptions options).isCall = leg.isCall := by
  cases leg <;> rfl

theorem legsOf_eq_nil_iff {calls : List BuilderCall} :
    legsOf calls = [] ↔ ∀ call ∈ calls, call.leg = none := by
  induction calls with
  | nil => simp [legsOf]
  | cons call calls ih => simp [legsOf, ih]

theorem legsOf_cons (call : BuilderCall) (calls : List BuilderCall) :
    legsOf (call :: calls) =
      (call.leg.map (GroupLeg.withOptions (options calls))).toList ++ legsOf calls := rfl

/-- An option of the leg before all of the calls. -/
theorem options_concat_option {calls : List BuilderCall} (hcalls : legsOf calls = [])
    {call : BuilderCall} (hleg : call.leg = none) :
    options (calls ++ [call]) = options calls ++ [call] := by
  have hnone : ∀ c ∈ calls, c.leg.isNone = true := by
    intro c hc
    rw [legsOf_eq_nil_iff.mp hcalls c hc]
    rfl
  unfold options
  rw [List.takeWhile_append_of_pos hnone, List.takeWhile_eq_self_iff.mpr hnone,
    List.takeWhile_cons, hleg]
  rfl

/-- The options end at the next leg. -/
theorem options_concat {calls : List BuilderCall} {call : BuilderCall}
    (h : legsOf calls ≠ [] ∨ call.leg ≠ none) : options (calls ++ [call]) = options calls := by
  unfold options
  rw [List.takeWhile_append]
  split_ifs with hlength
  · have hself := (List.takeWhile_prefix _).eq_of_length hlength
    have hnone := List.takeWhile_eq_self_iff.mp hself
    have hcall : call.leg ≠ none := by
      apply h.resolve_left
      intro hlegs
      apply hlegs
      apply legsOf_eq_nil_iff.mpr
      intro c hc
      exact Option.isNone_iff_eq_none.mp (hnone c hc)
    rw [List.takeWhile_cons, if_neg (by simpa using hcall), List.append_nil, hself]
  · rfl

/-- A call that adds a leg. -/
theorem legsOf_concat_leg {calls : List BuilderCall} {call : BuilderCall} {leg : GroupLeg}
    (hleg : call.leg = some leg) : legsOf (calls ++ [call]) = legsOf calls ++ [leg] := by
  induction calls with
  | nil =>
    rw [List.nil_append, legsOf_cons, hleg, Option.map_some]
    exact congrArg (fun l => [l]) leg.withOptions_nil
  | cons first calls ih =>
    have hoptions : options (calls ++ [call]) = options calls :=
      options_concat (Or.inr (by rw [hleg]; simp))
    rw [List.cons_append, legsOf_cons, legsOf_cons, hoptions, ih, List.append_assoc]

/-- A call that is an option of the last leg. -/
theorem legsOf_concat_option {calls : List BuilderCall} {call : BuilderCall}
    (hleg : call.leg = none) : legsOf (calls ++ [call]) =
      (legsOf calls).dropLast ++
        ((legsOf calls).getLast?.map (GroupLeg.withOptions [call])).toList := by
  induction calls with
  | nil =>
    rw [List.nil_append, legsOf_cons, hleg]
    rfl
  | cons first calls ih =>
    rw [List.cons_append, legsOf_cons, legsOf_cons, ih]
    by_cases hlegs : legsOf calls = []
    · -- all calls after the first are its options
      rw [options_concat_option hlegs hleg, hlegs]
      cases first.leg with
      | none => rfl
      | some leg => exact congrArg (fun l => [l]) (leg.withOptions_append _ _)
    · rw [options_concat (Or.inl hlegs), List.dropLast_append_of_ne_nil hlegs,
        List.getLast?_append_of_ne_nil _ hlegs, List.append_assoc]

example : legsOf [.callApp 5 none [] , .foreignAsset 1, .foreignApp 2, .foreignAsset 3,
    .payment "A" 7] = [.appCall 5 none [] (some 3) (some 2), .payment "A" 7] := by decide

/-! ## Misuses -/

/-- The last leg so far is a call. -/
def followsCall (before : List BuilderCall) : Bool :=
  (before.filterMap BuilderCall.leg).getLast?.any GroupLeg.isCall

/-- What is wrong with a call, after the calls before it. -/
def misuse (before : List BuilderCall) : BuilderCall → Option String
  | .payment .. | .assetTransfer .. => none
  | .callApp appId _ _ | .callAppRawArgs appId _ _ =>
    if appId = 0 then some "call_app() requires app_id > 0" else none
  | .callAppArc4Args appId method args =>
    match arc4FrameArgs method args with
    | .error e => some s!"call_app_arc4_args(): {e.display}"
    | .ok _ => if appId = 0 then some "call_app() requires app_id > 0" else none
  | .foreignAsset _ =>
    if followsCall before then none else some "foreign_asset() must follow a call_app() leg"
  | .foreignApp _ =>
    if followsCall before then none else some "foreign_app() must follow a call_app() leg"

/-- No call is a misuse. -/
def Proper (calls : List BuilderCall) : Prop :=
  ∀ before call after, calls = before ++ call :: after → misuse before call = none

/-- The first call that is a misuse is one with this message. -/
def FirstMisuse (calls : List BuilderCall) (message : String) : Prop :=
  ∃ before call after, calls = before ++ call :: after ∧ misuse before call = some message ∧
    Proper before

/-- The last leg that is asked for is a call where the last one added is. -/
theorem followsCall_eq (calls : List BuilderCall) :
    followsCall calls = (legsOf calls).getLast?.any GroupLeg.isCall := by
  induction calls using List.reverseRecOn with
  | nil => rfl
  | append_singleton calls call ih =>
    unfold followsCall at ih ⊢
    rw [List.filterMap_append]
    cases hleg : call.leg with
    | some leg =>
      rw [legsOf_concat_leg hleg, List.getLast?_concat, List.filterMap_cons_some hleg]
      rw [List.filterMap_nil, List.getLast?_concat]
    | none =>
      rw [legsOf_concat_option hleg, List.filterMap_cons_none hleg, List.filterMap_nil,
        List.append_nil, ih]
      cases hlast : (legsOf calls).getLast? with
      | none =>
        rw [List.getLast?_eq_none_iff.mp hlast]
        rfl
      | some leg =>
        rw [Option.map_some, Option.toList_some, List.getLast?_concat]
        exact (leg.isCall_withOptions [call]).symm

theorem proper_nil : Proper [] := by
  intro before call after h
  exact absurd h (by simp)

/-- A split of a sequence at a call of it is at the last call or before. -/
theorem concat_eq_split {calls : List BuilderCall} {call call' : BuilderCall}
    {before after : List BuilderCall} (h : calls ++ [call] = before ++ call' :: after) :
    (calls = before ∧ call = call' ∧ after = []) ∨
      ∃ after', calls = before ++ call' :: after' ∧ after = after' ++ [call] := by
  rcases List.eq_nil_or_concat after with rfl | ⟨after', last, rfl⟩
  · obtain ⟨hcalls, hcall⟩ := List.append_inj' h rfl
    exact Or.inl ⟨hcalls, List.singleton_inj.mp hcall, rfl⟩
  · rw [List.concat_eq_append] at h ⊢
    have hsplit : calls ++ [call] = (before ++ call' :: after') ++ [last] := by
      rw [h, List.append_assoc]
      rfl
    obtain ⟨hcalls, hcall⟩ := List.append_inj' hsplit rfl
    exact Or.inr ⟨after', hcalls, by rw [List.singleton_inj.mp hcall]⟩

theorem proper_concat {calls : List BuilderCall} {call : BuilderCall} :
    Proper (calls ++ [call]) ↔ Proper calls ∧ misuse calls call = none := by
  constructor
  · intro h
    constructor
    · intro before call' after hsplit
      apply h before call' (after ++ [call])
      rw [hsplit, List.append_assoc]
      rfl
    · exact h calls call [] rfl
  · intro h before call' after hsplit
    rcases concat_eq_split hsplit with ⟨rfl, rfl, -⟩ | ⟨after', hcalls, -⟩
    · exact h.2
    · exact h.1 before call' after' hcalls

theorem firstMisuse_concat {calls : List BuilderCall} {call : BuilderCall} {message : String} :
    FirstMisuse (calls ++ [call]) message ↔
      FirstMisuse calls message ∨ (Proper calls ∧ misuse calls call = some message) := by
  constructor
  · intro h
    obtain ⟨before, call', after, hsplit, hmisuse, hproper⟩ := h
    rcases concat_eq_split hsplit with ⟨rfl, rfl, -⟩ | ⟨after', hcalls, -⟩
    · exact Or.inr ⟨hproper, hmisuse⟩
    · exact Or.inl ⟨before, call', after', hcalls, hmisuse, hproper⟩
  · intro h
    rcases h with ⟨before, call', after, hcalls, hmisuse, hproper⟩ | ⟨hproper, hmisuse⟩
    · refine ⟨before, call', after ++ [call], ?_, hmisuse, hproper⟩
      rw [hcalls, List.append_assoc]
      rfl
    · exact ⟨calls, call, [], rfl, hmisuse, hproper⟩

/-! ## The builder -/

namespace TransactionGroupBuilder

variable {b : TransactionGroupBuilder}

theorem setError_error (message : String) :
    (b.setError message).error = b.error.or (some message) := rfl

theorem callApp_legs (appId : ℕ) (method : Option String) (args : List AppArg) :
    (b.callApp appId method args).legs = b.legs ++ [.appCall appId method args none none] := by
  unfold callApp push
  split_ifs <;> rfl

theorem callApp_error (appId : ℕ) (method : Option String) (args : List AppArg) :
    (b.callApp appId method args).error =
      b.error.or (if appId = 0 then some "call_app() requires app_id > 0" else none) := by
  unfold callApp push
  split_ifs
  · rfl
  · exact (Option.or_none).symm

/-- An option changes the last leg if it is a call, and is a misuse otherwise. -/
theorem onLastCall_spec (misuse : String)
    (f : ℕ → Option String → List AppArg → Option ℕ → Option ℕ → GroupLeg)
    {g : GroupLeg → GroupLeg} (hcall : ∀ appId method args asset app,
      g (.appCall appId method args asset app) = f appId method args asset app)
    (hother : ∀ leg : GroupLeg, leg.isCall = false → g leg = leg) :
    (b.onLastCall misuse f).legs = b.legs.dropLast ++ (b.legs.getLast?.map g).toList ∧
      (b.onLastCall misuse f).error =
        b.error.or (if b.legs.getLast?.any GroupLeg.isCall then none else some misuse) := by
  unfold onLastCall
  rcases hlast : b.legs.getLast? with _ | ⟨_, _⟩ | ⟨_, _, _⟩ | ⟨appId, method, args, asset, app⟩
  · refine ⟨?_, rfl⟩
    show b.legs = b.legs.dropLast ++ []
    rw [List.getLast?_eq_none_iff.mp hlast]
    rfl
  · refine ⟨?_, rfl⟩
    rw [Option.map_some, hother _ rfl]
    exact (List.dropLast_append_getLast? _ hlast).symm
  · refine ⟨?_, rfl⟩
    rw [Option.map_some, hother _ rfl]
    exact (List.dropLast_append_getLast? _ hlast).symm
  · refine ⟨?_, (Option.or_none).symm⟩
    rw [Option.map_some, hcall]
    rfl

end TransactionGroupBuilder

/-- What one call does to the legs and to the error. -/
theorem built_apply {calls : List BuilderCall} (hlegs : (built calls).legs = legsOf calls)
    (call : BuilderCall) :
    ((built calls).apply call).legs = legsOf (calls ++ [call]) ∧
      ((built calls).apply call).error = (built calls).error.or (misuse calls call) := by
  have hcalls := followsCall_eq calls
  cases call with
  | payment toAddress microAlgos =>
    rw [legsOf_concat_leg rfl, ← hlegs]
    exact ⟨rfl, (Option.or_none).symm⟩
  | assetTransfer assetId amount toAddress =>
    rw [legsOf_concat_leg rfl, ← hlegs]
    exact ⟨rfl, (Option.or_none).symm⟩
  | callApp appId method args =>
    rw [legsOf_concat_leg rfl, ← hlegs]
    exact ⟨(built calls).callApp_legs appId method args, (built calls).callApp_error appId method args⟩
  | callAppRawArgs appId method args =>
    rw [legsOf_concat_leg rfl, ← hlegs]
    exact ⟨(built calls).callApp_legs appId method args, (built calls).callApp_error appId method args⟩
  | callAppArc4Args appId method args =>
    rw [legsOf_concat_leg rfl, ← hlegs]
    show ((built calls).callAppArc4Args appId method args).legs = _ ∧
      ((built calls).callAppArc4Args appId method args).error = _
    unfold TransactionGroupBuilder.callAppArc4Args
    dsimp only [misuse]
    cases arc4FrameArgs method args with
    | ok framed =>
      exact ⟨TransactionGroupBuilder.callApp_legs _ _ _, TransactionGroupBuilder.callApp_error _ _ _⟩
    | error e =>
      -- the framing error comes before that of the application id
      refine ⟨TransactionGroupBuilder.callApp_legs _ _ _, ?_⟩
      dsimp only
      rw [TransactionGroupBuilder.callApp_error, TransactionGroupBuilder.setError_error,
        Option.or_assoc]
      rfl
  | foreignAsset assetId =>
    rw [legsOf_concat_option rfl, ← hlegs]
    unfold misuse
    rw [hcalls, ← hlegs]
    apply TransactionGroupBuilder.onLastCall_spec
    · intro appId method args asset app
      rfl
    · intro leg hleg
      cases leg <;> first | rfl | exact absurd hleg (by simp [GroupLeg.isCall])
  | foreignApp foreignAppId =>
    rw [legsOf_concat_option rfl, ← hlegs]
    unfold misuse
    rw [hcalls, ← hlegs]
    apply TransactionGroupBuilder.onLastCall_spec
    · intro appId method args asset app
      rfl
    · intro leg hleg
      cases leg <;> first | rfl | exact absurd hleg (by simp [GroupLeg.isCall])

/-- The builder has the legs that are asked for. -/
theorem built_legs (calls : List BuilderCall) : (built calls).legs = legsOf calls := by
  induction calls using List.reverseRecOn with
  | nil => rfl
  | append_singleton calls call ih =>
    rw [built_concat]
    exact (built_apply ih call).1

theorem built_error_concat (calls : List BuilderCall) (call : BuilderCall) :
    (built (calls ++ [call])).error = (built calls).error.or (misuse calls call) := by
  rw [built_concat]
  exact (built_apply (built_legs calls) call).2

theorem built_error_eq_none_iff (calls : List BuilderCall) :
    (built calls).error = none ↔ Proper calls := by
  induction calls using List.reverseRecOn with
  | nil => exact iff_of_true rfl proper_nil
  | append_singleton calls call ih =>
    rw [built_error_concat, Option.or_eq_none_iff, ih, proper_concat]

/-- The error of the builder is the first misuse. -/
theorem built_error_eq_some_iff (calls : List BuilderCall) (message : String) :
    (built calls).error = some message ↔ FirstMisuse calls message := by
  induction calls using List.reverseRecOn with
  | nil =>
    apply iff_of_false
    · exact fun h => absurd h (by simp [built, transactionGroup])
    · intro h
      obtain ⟨before, call, after, hsplit, -⟩ := h
      exact absurd hsplit (by simp)
  | append_singleton calls call ih =>
    rw [built_error_concat, Option.or_eq_some_iff, ih, built_error_eq_none_iff,
      firstMisuse_concat]

end BlockchainOps.Algo
