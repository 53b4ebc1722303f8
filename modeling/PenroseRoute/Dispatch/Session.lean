import PenroseRoute.Optimization.Contracts

/-!
# Signed dispatch contexts

`app/integrations/dispatch_agent/contracts.py` and `app/modules/dispatch/session.py`. The server
keeps no conversation: a reply carries the context and the actions still to do in a signed token,
and the next request brings it back.
-/

namespace PenroseRoute.Dispatch

/-- `Action`, contracts.py:7. -/
inductive Action where
  | getResourceAvailability
  | getDeliveryStatus
  | getRecoveryProposal
  | comparePlanVersions
  | explainRiskAlert
  deriving DecidableEq, Repr

/-- `DispatchContext`, contracts.py:17. -/
structure DispatchContext where
  businessDate : Option BusinessDate := none
  orderId : Option UUID := none
  alertId : Option UUID := none
  incidentId : Option UUID := none
  recoveryPlanId : Option UUID := none
  basePlanId : Option UUID := none
  candidatePlanId : Option UUID := none
  deriving DecidableEq, Repr

/-- `IntentPlan`, contracts.py:33: at most six actions. -/
structure IntentPlan where
  actions : List Action
  clarification : Option String
  atMostSix : actions.length ≤ 6

/-- `RecoveryError`, as the dispatch modules raise it. -/
structure RecoveryError where
  code : String
  message : String
  httpStatus : Nat
  deriving DecidableEq, Repr

/-- The payload of a token, session.py:19–20; `expires` is in epoch seconds. -/
structure TokenPayload where
  context : DispatchContext
  subject : String
  expires : Int
  pendingActions : List Action
  deriving DecidableEq, Repr

/-- JSON and base64 in both directions, and the HMAC under the codec's key. -/
structure Wire where
  body : TokenPayload → String
  payload : String → Option TokenPayload
  sign : String → String

/-- `ContextCodec`. -/
structure ContextCodec where
  wire : Wire
  ttl : Int

namespace ContextCodec

variable (codec : ContextCodec)

/-- The signed text of a payload. -/
def token (p : TokenPayload) : String :=
  codec.wire.body p ++ "." ++ codec.wire.sign (codec.wire.body p)

/-- `token.split(".")`. -/
def parts (token : String) : List String := (token.toList.splitOn '.').map String.ofList

/-- The payload that `encode` signs, session.py:18–21; `int(self.clock())` drops the fraction. -/
def encodePayload (context : DispatchContext) (subject : String) (pendingActions : List Action)
    (clock : Instant) : TokenPayload :=
  ⟨context, subject, clock.tdiv 1000000 + codec.ttl, pendingActions⟩

/-- The one error of `decode_state`. -/
def tokenInvalid : RecoveryError :=
  ⟨"CONTEXT_TOKEN_INVALID",
    "Context expired or belongs to another user; select the date and plan again", 400⟩

/-- `decode_state`, session.py:28–40. -/
def decodeState (token subject : String) (clock : Instant) :
    Except RecoveryError (DispatchContext × List Action) :=
  match parts token with
  | [body, signature] =>
    if signature = codec.wire.sign body then
      match codec.wire.payload body with
      | some data =>
        if data.subject ≠ subject ∨ data.expires * 1000000 ≤ clock then .error tokenInvalid
        else if data.pendingActions.length ≤ 6 then .ok (data.context, data.pendingActions)
        else .error tokenInvalid
      | none => .error tokenInvalid
    else .error tokenInvalid
  | _ => .error tokenInvalid

/-- What is assumed of a token that a request carries: nobody but the codec signs, and what the
codec has written is read back. -/
structure Trusted (issued : List TokenPayload) (token : String) : Prop where
  unforged : ∀ body signature, parts token = [body, signature] →
    signature = codec.wire.sign body → ∃ p ∈ issued, body = codec.wire.body p
  roundTrip : ∀ p ∈ issued, codec.wire.payload (codec.wire.body p) = some p

variable {codec}

/-- An accepted token brings back an issued payload of the same subject, unexpired. -/
theorem decodeState_issued {issued : List TokenPayload} {token subject : String} {clock : Instant}
    {context : DispatchContext} {pending : List Action} (htrusted : codec.Trusted issued token)
    (h : codec.decodeState token subject clock = .ok (context, pending)) :
    ∃ p ∈ issued, parts token = [codec.wire.body p, codec.wire.sign (codec.wire.body p)] ∧
      p.context = context ∧ p.pendingActions = pending ∧ p.subject = subject ∧
        clock < p.expires * 1000000 := by
  unfold decodeState at h
  split at h
  · next body signature hsplit =>
    split at h
    · next hsigned =>
      obtain ⟨p, hp, rfl⟩ := htrusted.unforged body signature hsplit hsigned
      rw [htrusted.roundTrip p hp] at h
      dsimp only at h
      split at h
      · cases h
      · next hfresh =>
        rw [not_or, Decidable.not_not] at hfresh
        split at h
        · cases h
          exact ⟨p, hp, hsigned ▸ hsplit, rfl, rfl, hfresh.1, Int.not_le.mp hfresh.2⟩
        · cases h
    · cases h
  · cases h

end ContextCodec

end PenroseRoute.Dispatch
