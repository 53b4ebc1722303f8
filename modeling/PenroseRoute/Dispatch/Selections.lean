import Mathlib.Data.List.Infix
import PenroseRoute.Dispatch.Service
import PenroseRoute.Lib.Runs

/-!
# Selections do not mix

A change of date, incident or recovery drops what was selected under the old one. Each of the two
merges of a request does so, hence their composition, and a token brings back only what an earlier
reply to the same subject held.
-/

namespace PenroseRoute.Dispatch

open Lib

/-! ### Identifiers of a context -/

/-- The fields of a context that hold an identifier. -/
inductive EntityKey where
  | order
  | alert
  | incident
  | recoveryPlan
  | basePlan
  | candidatePlan
  deriving DecidableEq, Repr

/-- The identifier that a context holds of a kind of entity. -/
def DispatchContext.entity (context : DispatchContext) : EntityKey → Option UUID
  | .order => context.orderId
  | .alert => context.alertId
  | .incident => context.incidentId
  | .recoveryPlan => context.recoveryPlanId
  | .basePlan => context.basePlanId
  | .candidatePlan => context.candidatePlanId

/-- What an update says of a kind of entity: nothing, or its new value. -/
def Updates.entity (updates : Updates) : EntityKey → Option (Option UUID)
  | .order => updates.orderId
  | .alert => updates.alertId
  | .incident => updates.incidentId
  | .recoveryPlan => updates.recoveryPlanId
  | .basePlan => updates.basePlanId
  | .candidatePlan => updates.candidatePlanId

/-- The context holds only identifiers that are supplied. -/
def AllSupplied (supplied : EntityKey → UUID → Prop) (context : DispatchContext) : Prop :=
  ∀ key id, context.entity key = some id → supplied key id

/-- What a step from one context to another keeps of the old identifiers: none over a change of the
date, and none that belongs to a changed incident or recovery. -/
structure DropsStale (supplied : EntityKey → UUID → Prop) (old new : DispatchContext) : Prop where
  origin : ∀ key id, new.entity key = some id → supplied key id ∨ old.entity key = some id
  date : new.businessDate ≠ old.businessDate → AllSupplied supplied new
  incident : new.incidentId ≠ old.incidentId →
    ∀ key ∈ [EntityKey.recoveryPlan, .basePlan, .candidatePlan], ∀ id,
      new.entity key = some id → supplied key id
  recovery : new.recoveryPlanId ≠ old.recoveryPlanId →
    ∀ key ∈ [EntityKey.basePlan, .candidatePlan], ∀ id, new.entity key = some id → supplied key id

namespace DropsStale

variable {supplied : EntityKey → UUID → Prop} {old mid new : DispatchContext}

/-- A context of supplied identifiers has nothing stale. -/
theorem of_allSupplied (h : AllSupplied supplied new) : DropsStale supplied old new :=
  ⟨fun key id hid ↦ .inl (h key id hid), fun _ ↦ h, fun _ key _ id ↦ h key id,
    fun _ key _ id ↦ h key id⟩

/-- From supplied identifiers only supplied ones follow. -/
theorem allSupplied (h : DropsStale supplied old new) (hold : AllSupplied supplied old) :
    AllSupplied supplied new := by
  intro key id hid
  rcases h.origin key id hid with hs | ho
  · exact hs
  · exact hold key id ho

/-- Two steps one after the other. -/
theorem trans (h : DropsStale supplied old mid) (h' : DropsStale supplied mid new) :
    DropsStale supplied old new := by
  refine ⟨?_, ?_, ?_, ?_⟩
  · intro key id hid
    rcases h'.origin key id hid with hs | hmid
    · exact .inl hs
    · exact h.origin key id hmid
  · intro hne
    by_cases hlast : new.businessDate = mid.businessDate
    · exact h'.allSupplied (h.date (hlast ▸ hne))
    · exact h'.date hlast
  · intro hne key hkey id hid
    by_cases hlast : new.incidentId = mid.incidentId
    · rcases h'.origin key id hid with hs | hmid
      · exact hs
      · exact h.incident (hlast ▸ hne) key hkey id hmid
    · exact h'.incident hlast key hkey id hid
  · intro hne key hkey id hid
    by_cases hlast : new.recoveryPlanId = mid.recoveryPlanId
    · rcases h'.origin key id hid with hs | hmid
      · exact hs
      · exact h.recovery (hlast ▸ hne) key hkey id hmid
    · exact h'.recovery hlast key hkey id hid

end DropsStale

/-! ### Merges -/

/-- The updates supply the identifier. -/
def Updates.Supplies (updates : Updates) (key : EntityKey) (id : UUID) : Prop :=
  updates.entity key = some (some id)

/-- An update replaces what it names and leaves the rest. -/
theorem applyTo_entity (updates : Updates) (context : DispatchContext) (key : EntityKey) :
    (updates.applyTo context).entity key = (updates.entity key).getD (context.entity key) := by
  cases key <;> rfl

/-- Where an identifier of the updated context comes from. -/
theorem applyTo_origin {updates : Updates} {context : DispatchContext} {key : EntityKey} {id : UUID}
    (h : (updates.applyTo context).entity key = some id) :
    updates.Supplies key id ∨ updates.entity key = none ∧ context.entity key = some id := by
  rw [applyTo_entity] at h
  cases hu : updates.entity key with
  | none =>
    rw [hu] at h
    exact .inr ⟨rfl, h⟩
  | some value =>
    rw [hu] at h
    exact .inl (hu.trans (congrArg some h))

/-- An update that changes nothing leaves the field. -/
theorem getD_eq_of_not_changes {α : Type} [DecidableEq α] {update : Option (Option α)}
    {current : Option α} (h : changes update current = false) : update.getD current = current := by
  cases update with
  | none => rfl
  | some value => exact bne_eq_false_iff_eq.mp h

/-- The context that a merge applies its updates to. -/
abbrev cleared (context : DispatchContext) (updates : Updates) : DispatchContext :=
  clearPlans (clearRecovery context updates) updates

variable {context : DispatchContext} {updates : Updates}

/-- Clearing gives nothing new. -/
theorem cleared_entity {key : EntityKey} {id : UUID}
    (h : (cleared context updates).entity key = some id) : context.entity key = some id := by
  have hrecovery : (clearRecovery context updates).entity key = some id := by
    unfold cleared clearPlans at h
    split at h
    · cases key <;> first | exact h | cases h
    · exact h
  unfold clearRecovery at hrecovery
  split at hrecovery
  · cases key <;> first | exact hrecovery | cases hrecovery
  · exact hrecovery

/-- Clearing the selections keeps the date and the incident. -/
theorem cleared_fields : (cleared context updates).businessDate = context.businessDate ∧
    (cleared context updates).incidentId = context.incidentId := by
  unfold cleared clearPlans
  split <;> (unfold clearRecovery; split <;> exact ⟨rfl, rfl⟩)

/-- A new incident clears its recovery and the plans. -/
theorem cleared_of_incident (h : changes updates.incidentId context.incidentId = true) :
    (cleared context updates).recoveryPlanId = none ∧ (cleared context updates).basePlanId = none ∧
      (cleared context updates).candidatePlanId = none := by
  unfold cleared clearPlans
  split <;> (unfold clearRecovery; rw [if_pos h]; exact ⟨rfl, rfl, rfl⟩)

/-- Without a new incident a new recovery clears the plans, and nothing else is cleared. -/
theorem cleared_of_recovery (hincident : changes updates.incidentId context.incidentId = false) :
    (cleared context updates).recoveryPlanId = context.recoveryPlanId ∧
      (changes updates.recoveryPlanId context.recoveryPlanId = true →
        (cleared context updates).basePlanId = none ∧
          (cleared context updates).candidatePlanId = none) := by
  have hsame : clearRecovery context updates = context :=
    if_neg (Bool.eq_false_iff.mp hincident)
  unfold cleared clearPlans
  rw [hsame]
  split
  · exact ⟨rfl, fun _ ↦ ⟨rfl, rfl⟩⟩
  · next h => exact ⟨rfl, fun hchanges ↦ absurd hchanges h⟩

/-- What is cleared comes from the updates. -/
theorem supplied_of_cleared {key : EntityKey} {id : UUID}
    (hclear : (cleared context updates).entity key = none)
    (h : (mergeContext context updates).entity key = some id) : updates.Supplies key id := by
  rcases applyTo_origin h with hs | ⟨-, hc⟩
  · exact hs
  · rw [hclear] at hc
    cases hc

/-- Step: a merge that does not change the date drops what is stale. -/
theorem mergeContext_dropsStale
    (hdate : changes updates.businessDate context.businessDate = false) :
    DropsStale updates.Supplies context (mergeContext context updates) := by
  refine ⟨?_, ?_, ?_, ?_⟩
  · intro key id hid
    rcases applyTo_origin hid with hs | ⟨-, hc⟩
    · exact .inl hs
    · exact .inr (cleared_entity hc)
  · intro hne
    refine absurd ?_ hne
    have : (mergeContext context updates).businessDate =
        updates.businessDate.getD (cleared context updates).businessDate := rfl
    rw [this, cleared_fields.1, getD_eq_of_not_changes hdate]
  · intro hne key hkey id hid
    have hnew : (mergeContext context updates).incidentId =
        updates.incidentId.getD (cleared context updates).incidentId := rfl
    rw [hnew, cleared_fields.2] at hne
    cases hchanges : changes updates.incidentId context.incidentId with
    | false => exact absurd (getD_eq_of_not_changes hchanges) hne
    | true =>
      obtain ⟨hrecovery, hbase, hcandidate⟩ := cleared_of_incident hchanges
      refine supplied_of_cleared ?_ hid
      simp only [List.mem_cons, List.not_mem_nil, or_false] at hkey
      rcases hkey with rfl | rfl | rfl
      · exact hrecovery
      · exact hbase
      · exact hcandidate
  · intro hne key hkey id hid
    have hplans : (cleared context updates).basePlanId = none ∧
        (cleared context updates).candidatePlanId = none := by
      cases hincident : changes updates.incidentId context.incidentId with
      | true => exact (cleared_of_incident hincident).2
      | false =>
        obtain ⟨hsame, hclear⟩ := cleared_of_recovery hincident
        have hnew : (mergeContext context updates).recoveryPlanId =
            updates.recoveryPlanId.getD (cleared context updates).recoveryPlanId := rfl
        rw [hnew, hsame] at hne
        cases hrecovery : changes updates.recoveryPlanId context.recoveryPlanId with
        | false => exact absurd (getD_eq_of_not_changes hrecovery) hne
        | true => exact hclear hrecovery
    refine supplied_of_cleared ?_ hid
    simp only [List.mem_cons, List.not_mem_nil, or_false] at hkey
    rcases hkey with rfl | rfl
    · exact hplans.1
    · exact hplans.2

/-- Nothing is selected in an empty context, so a merge into it holds what is supplied. -/
theorem mergeContext_empty : AllSupplied updates.Supplies (mergeContext {} updates) := by
  intro key id hid
  rcases applyTo_origin hid with hs | ⟨-, hc⟩
  · exact hs
  · have := cleared_entity hc
    cases key <;> cases this

/-! ### Requests -/

variable {codec : ContextCodec} {tools : TextTools}

/-- The fields or the text of a request supply the identifier. -/
def Supplied (tools : TextTools) (today : BusinessDate) (command : DispatchCommand)
    (key : EntityKey) (id : UUID) : Prop :=
  command.context.Supplies key id ∨
    ∃ values, extractValues tools today command.message = .ok values ∧ values.Supplies key id

/-- The more is supplied, the easier it is to drop what is stale. -/
theorem DropsStale.mono {supplied supplied' : EntityKey → UUID → Prop} {old new : DispatchContext}
    (hle : ∀ key id, supplied key id → supplied' key id) (h : DropsStale supplied old new) :
    DropsStale supplied' old new :=
  ⟨fun key id hid ↦ (h.origin key id hid).imp_left (hle key id),
    fun hne key id hid ↦ hle key id (h.date hne key id hid),
    fun hne key hkey id hid ↦ hle key id (h.incident hne key hkey id hid),
    fun hne key hkey id hid ↦ hle key id (h.recovery hne key hkey id hid)⟩

/-- The merge of the explicit fields. -/
theorem explicit_dropsStale (context : DispatchContext) (updates : Updates) :
    DropsStale updates.Supplies context (mergeExplicit context updates) := by
  unfold mergeExplicit
  split
  · exact .of_allSupplied mergeContext_empty
  · next h => exact mergeContext_dropsStale (Bool.eq_false_iff.mpr h)

/-- The merge of what the text supplies. -/
theorem extractContext_dropsStale {today : BusinessDate} {command : DispatchCommand}
    {context new : DispatchContext}
    (h : extractContext tools today command.message context command.context = .ok new) :
    DropsStale (Supplied tools today command) context new := by
  obtain ⟨values, hvalues, h⟩ := bind_eq_ok.mp h
  cases h
  have hmerge : ∀ key id, values.Supplies key id → Supplied tools today command key id :=
    fun key id hs ↦ .inr ⟨values, hvalues, hs⟩
  split
  · -- a new date: the context holds the explicit fields only
    refine .of_allSupplied fun key id hid ↦ ?_
    rcases applyTo_origin hid with hs | ⟨-, hc⟩
    · exact hmerge key id hs
    · rcases applyTo_origin (cleared_entity hc) with hs | ⟨-, hempty⟩
      · exact .inl (by cases key <;> exact hs)
      · cases key <;> cases hempty
  · next h => exact (mergeContext_dropsStale (Bool.eq_false_iff.mpr h)).mono hmerge

/-- One request: the context that it works in has dropped what is stale. -/
theorem readContext_dropsStale {around : Surroundings} {command : DispatchCommand}
    {subject : String}
    {context : DispatchContext} {pending : List Action}
    (h : readContext codec tools around command subject = .ok (context, pending)) :
    ∃ start, startContext codec around command subject = .ok (start, pending) ∧
      DropsStale (Supplied tools around.today command) start context := by
  obtain ⟨start, hstart, h⟩ := bind_eq_ok.mp h
  obtain ⟨context', hcontext, h⟩ := bind_eq_ok.mp h
  cases h
  refine ⟨start.1, hstart, ?_⟩
  exact ((explicit_dropsStale start.1 command.context).mono fun key id hs ↦ .inl hs).trans
    (extractContext_dropsStale hcontext)

/-- Every reply holds the context that was read, and its token carries it for the subject. -/
theorem run_eq_ok {around : Surroundings} {command : DispatchCommand} {subject : String}
    {reply : DispatchReply} (h : run codec tools around command subject = .ok reply) :
    (∃ pending, readContext codec tools around command subject = .ok (reply.context, pending)) ∧
      reply.token.context = reply.context ∧ reply.token.subject = subject := by
  unfold run at h
  obtain ⟨⟨context, pending⟩, hread, h⟩ := bind_eq_ok.mp h
  dsimp only at h
  split at h
  · cases h
    exact ⟨⟨pending, hread⟩, rfl, rfl⟩
  · split at h <;> (cases h; exact ⟨⟨pending, hread⟩, rfl, rfl⟩)

/-! ### Conversations -/

/-- One call of the service. -/
structure Call where
  around : Surroundings
  command : DispatchCommand
  subject : String

/-- The calls so far with their replies, the last one first. -/
abbrev History := List (Call × DispatchReply)

/-- The payloads that the codec has signed. -/
def History.issued (history : History) : List TokenPayload := history.map (·.2.token)

/-- One more call; a rejected one leaves nothing behind. -/
def serve (codec : ContextCodec) (tools : TextTools) (history : History) (call : Call) : History :=
  match run codec tools call.around call.command call.subject with
  | .ok reply => (call, reply) :: history
  | .error _ => history

/-- Callers may send any token that they cannot have forged. -/
def Allowed (codec : ContextCodec) (history : History) (call : Call) : Prop :=
  ∀ token, call.command.contextToken = some token → codec.Trusted history.issued token

/-- What a call brings back is what an earlier reply to its subject held, unexpired; without a token
it is nothing. -/
def BroughtBack (codec : ContextCodec) (history : History) (call : Call) (start : DispatchContext)
    (pending : List Action) : Prop :=
  ((call.command.contextToken = none ∨ call.command.contextToken = some "") ∧ start = {} ∧
      pending = []) ∨
    ∃ token earlier reply, call.command.contextToken = some token ∧ (earlier, reply) ∈ history ∧
      ContextCodec.parts token =
        [codec.wire.body reply.token, codec.wire.sign (codec.wire.body reply.token)] ∧
      earlier.subject = call.subject ∧ call.around.decodedAt < reply.token.expires * 1000000 ∧
      reply.context = start ∧ reply.token.pendingActions = pending

/-- Every reply of the history is one that the service gave. -/
theorem Reachable.replied {history : History}
    (h : Lib.Reachable (serve codec tools) (· = []) (Allowed codec) history) :
    ∀ entry ∈ history, run codec tools entry.1.around entry.1.command entry.1.subject =
      .ok entry.2 := by
  refine h.invariant (I := fun history ↦ ∀ entry ∈ history,
    run codec tools entry.1.around entry.1.command entry.1.subject = .ok entry.2) ?_ ?_
  · rintro _ rfl entry hentry
    cases hentry
  · intro history call ih _ entry hentry
    unfold serve at hentry
    split at hentry
    · next reply hreply =>
      cases hentry with
      | head => exact hreply
      | tail _ hentry => exact ih entry hentry
    · exact ih entry hentry

/-- In every conversation each call is rejected, or it starts from exactly the context and pending
actions that its token carries (unexpired, from an earlier reply to the same subject), and the
context of its reply has dropped what a change of date, incident or recovery makes stale. -/
theorem run_context {history : History} {call : Call}
    (h : Lib.Reachable (serve codec tools) (· = []) (Allowed codec) history)
    (ha : Allowed codec history call) :
    (∃ e, run codec tools call.around call.command call.subject = .error e) ∨
      ∃ reply start pending,
        run codec tools call.around call.command call.subject = .ok reply ∧
        startContext codec call.around call.command call.subject = .ok (start, pending) ∧
        BroughtBack codec history call start pending ∧
        DropsStale (Supplied tools call.around.today call.command) start reply.context := by
  cases hrun : run codec tools call.around call.command call.subject with
  | error e => exact .inl ⟨e, rfl⟩
  | ok reply =>
    obtain ⟨⟨pending, hread⟩, -⟩ := run_eq_ok hrun
    obtain ⟨start, hstart, hdrops⟩ := readContext_dropsStale hread
    refine .inr ⟨reply, start, pending, rfl, hstart, ?_, hdrops⟩
    unfold startContext at hstart
    split at hstart
    · next token htoken =>
      split at hstart
      · next hempty =>
        cases hstart
        exact .inl ⟨.inr (hempty ▸ htoken), rfl, rfl⟩
      · obtain ⟨p, hp, hparts, hcontext, hpending, hsubject, hfresh⟩ :=
          ContextCodec.decodeState_issued (ha token htoken) hstart
        obtain ⟨⟨earlier, answer⟩, hentry, rfl⟩ := List.mem_map.mp hp
        obtain ⟨-, hheld, hsame⟩ := run_eq_ok (Reachable.replied h _ hentry)
        exact .inr ⟨token, earlier, answer, htoken, hentry, hparts, hsame.symm.trans hsubject,
          hfresh,
          hheld.symm.trans hcontext, hpending⟩
    · next htoken =>
      cases hstart
      exact .inl ⟨.inl htoken, rfl, rfl⟩

/-! ### A change of the date -/

private def plainTools : TextTools where
  findall _ _ := []
  findallIgnoreCase _ _ := []
  fullmatchIgnoreCase _ _ := false
  lower text := text
  strip text := text
  strptime _ := none
  uuid _ := 0

private def quiet : Surroundings where
  decodedAt := 0
  today := 1
  repliedAt := 0
  planner := none
  execute _ _ := .ok ["fact"]
  arrange _ := "message"

private def selected : TokenPayload :=
  ⟨{ businessDate := some 5, orderId := some 7 }, "dispatcher", 1800, []⟩

private def oneKeyCodec : ContextCodec where
  wire :=
    { body := fun _ ↦ "body"
      payload := fun text ↦ if text = "body" then some selected else none
      sign := fun _ ↦ "signature" }
  ttl := 1800

private def selectOrder : Call where
  around := quiet
  command :=
    { message := "status"
      context := { businessDate := some (some 5), orderId := some (some 7) } }
  subject := "dispatcher"

private def nextDay : Call where
  around := quiet
  command :=
    { message := "status"
      context := { businessDate := some (some 6) }
      contextToken := some (oneKeyCodec.token selected) }
  subject := "dispatcher"

/-- The order of the fifth is dropped when the same subject goes on with the sixth. -/
theorem run_context_nextDay :
    ∃ reply start pending,
      run oneKeyCodec plainTools quiet nextDay.command "dispatcher" = .ok reply ∧
      BroughtBack oneKeyCodec (serve oneKeyCodec plainTools [] selectOrder) nextDay start pending ∧
      start.orderId = some 7 ∧ reply.context = { businessDate := some 6 } := by
  have hissued : (serve oneKeyCodec plainTools [] selectOrder).issued = [selected] := by
    decide +kernel
  have hparts : ContextCodec.parts (oneKeyCodec.token selected) = ["body", "signature"] := by
    decide +kernel
  have hreach : Lib.Reachable (serve oneKeyCodec plainTools) (· = []) (Allowed oneKeyCodec)
      (serve oneKeyCodec plainTools [] selectOrder) :=
    .step selectOrder (.init rfl) fun token htoken ↦ (by cases htoken)
  have hallowed : Allowed oneKeyCodec (serve oneKeyCodec plainTools [] selectOrder) nextDay := by
    intro token htoken
    cases htoken
    refine ⟨fun body signature hsplit _ ↦ ⟨selected, ?_, ?_⟩, fun p hp ↦ ?_⟩
    · rw [hissued]
      exact List.mem_singleton.mpr rfl
    · rw [hparts] at hsplit
      exact (List.cons.inj hsplit).1.symm
    · rw [hissued] at hp
      rw [List.mem_singleton.mp hp]
      rfl
  have hreply : (run oneKeyCodec plainTools quiet nextDay.command "dispatcher").toOption.map
      (·.context) = some { businessDate := some 6 } := by
    decide +kernel
  have hstart : (startContext oneKeyCodec quiet nextDay.command "dispatcher").toOption.map
      (·.1.orderId) = some (some 7) := by
    decide +kernel
  rcases run_context hreach hallowed with ⟨e, he⟩ | ⟨reply, start, pending, hrun, hs, hb, -⟩
  · rw [show run oneKeyCodec plainTools quiet nextDay.command "dispatcher" = .error e from he]
      at hreply
    cases hreply
  · rw [show run oneKeyCodec plainTools quiet nextDay.command "dispatcher" = .ok reply from hrun]
      at hreply
    rw [show startContext oneKeyCodec quiet nextDay.command "dispatcher" = .ok (start, pending)
      from hs] at hstart
    exact ⟨reply, start, pending, hrun, hb, Option.some.inj hstart, Option.some.inj hreply⟩

end PenroseRoute.Dispatch
