import Mathlib.Data.List.Dedup
import Mathlib.Data.List.Infix
import PenroseRoute.Dispatch.Session

/-!
# The dispatch service

`app/modules/dispatch/service.py` and the rule planner of
`app/integrations/dispatch_agent/planner.py`. A request names its selections in fields and in its
text; both are merged into the context that its token brings back.
-/

namespace PenroseRoute.Dispatch

/-! ### Selections -/

/-- Fields of a context that are set, as `model_dump(exclude_unset=True)` returns them; a field may
be set to nothing. -/
structure Updates where
  businessDate : Option (Option BusinessDate) := none
  orderId : Option (Option UUID) := none
  alertId : Option (Option UUID) := none
  incidentId : Option (Option UUID) := none
  recoveryPlanId : Option (Option UUID) := none
  basePlanId : Option (Option UUID) := none
  candidatePlanId : Option (Option UUID) := none
  deriving DecidableEq, Repr

/-- `{**context.model_dump(), **updates}`. -/
def Updates.applyTo (updates : Updates) (context : DispatchContext) : DispatchContext where
  businessDate := updates.businessDate.getD context.businessDate
  orderId := updates.orderId.getD context.orderId
  alertId := updates.alertId.getD context.alertId
  incidentId := updates.incidentId.getD context.incidentId
  recoveryPlanId := updates.recoveryPlanId.getD context.recoveryPlanId
  basePlanId := updates.basePlanId.getD context.basePlanId
  candidatePlanId := updates.candidatePlanId.getD context.candidatePlanId

/-- `key in updates and updates[key] != current`. -/
def changes {α : Type} [DecidableEq α] (update : Option (Option α)) (current : Option α) : Bool :=
  match update with
  | some value => value != current
  | none => false

/-- A new incident drops the recovery and its plans, service.py:124–126. -/
def clearRecovery (context : DispatchContext) (updates : Updates) : DispatchContext :=
  if changes updates.incidentId context.incidentId then
    { context with recoveryPlanId := none, basePlanId := none, candidatePlanId := none }
  else context

/-- A new recovery drops the plans, service.py:127–128. -/
def clearPlans (context : DispatchContext) (updates : Updates) : DispatchContext :=
  if changes updates.recoveryPlanId context.recoveryPlanId then
    { context with basePlanId := none, candidatePlanId := none }
  else context

/-- `_merge_context`, service.py:122–128. -/
def mergeContext (context : DispatchContext) (updates : Updates) : DispatchContext :=
  updates.applyTo (clearPlans (clearRecovery context updates) updates)

/-! ### Texts -/

/-- What the service takes from the standard library to read a text: regular expressions, dates and
ids, and what `lower` and `strip` do to all of Unicode. -/
structure TextTools where
  /-- `re.findall(pattern, text)`. -/
  findall : String → String → List String
  /-- `re.findall(pattern, text, re.I)`. -/
  findallIgnoreCase : String → String → List String
  /-- `re.fullmatch(pattern, text, re.I)`. -/
  fullmatchIgnoreCase : String → String → Bool
  lower : String → String
  strip : String → String
  /-- `datetime.strptime(text, "%Y-%m-%d").date()`, which may raise. -/
  strptime : String → Option BusinessDate
  /-- `UUID(text)` on a text that matches the pattern. -/
  uuid : String → UUID

/-- `word in text`. -/
def occursIn (word text : String) : Bool := decide (word.toList <:+: text.toList)

/-- `UUID_PATTERN`, service.py:14. -/
def uuidPattern : String :=
  "[0-9a-fA-F]{8}-[0-9a-fA-F]{4}-[0-9a-fA-F]{4}-[0-9a-fA-F]{4}-[0-9a-fA-F]{12}"

/-- The pattern of a date in a question, service.py:94. -/
def datePattern : String := "\\b\\d{4}-\\d{2}-\\d{2}\\b"

/-- The labels in front of the identifier of an order, service.py:108–112. -/
def orderLabel : String := "(?:order_id|订单)(?:\\s*ID)?"

/-- The labels in front of the identifier of an alert. -/
def alertLabel : String := "(?:alert_id|提醒|告警)(?:\\s*ID)?"

/-- The labels in front of the identifier of an incident. -/
def incidentLabel : String := "(?:incident(?:_id)?|事件|异常)(?:\\s*ID)?"

/-- The labels in front of the identifier of a recovery plan. -/
def recoveryPlanLabel : String := "(?:recovery_plan_id|恢复方案|恢复尝试)(?:\\s*ID)?"

/-- The labels in front of the identifier of a base plan. -/
def basePlanLabel : String := "(?:base_plan_id|基础计划|原计划)(?:\\s*ID)?"

/-- The labels in front of the identifier of a candidate plan. -/
def candidatePlanLabel : String := "(?:candidate_plan_id|候选计划)(?:\\s*ID)?"

/-- The identifier behind a label, if the text has exactly one. -/
def extractId (tools : TextTools) (label text : String) :
    Except RecoveryError (Option (Option UUID)) :=
  let found := tools.findallIgnoreCase (label ++ "\\s*[:：=]?\\s*(" ++ uuidPattern ++ ")") text
  match found.dedup with
  | [] => .ok none
  | [_] => .ok (found.head?.map fun id ↦ some (tools.uuid id))
  | _ => .error ⟨"DISPATCH_ENTITY_AMBIGUOUS",
      "Multiple IDs of the same type were supplied; select one", 422⟩

/-- The date that the text names, literally or relative to `today`; service.py:94–103. -/
def extractDate (tools : TextTools) (today : BusinessDate) (text : String) :
    Except RecoveryError (Option BusinessDate) :=
  let dates := tools.findall datePattern text
  if 1 < dates.dedup.length then
    .error ⟨"DISPATCH_DATE_AMBIGUOUS", "Select one delivery date per request", 422⟩
  else
    match dates with
    | date :: _ =>
      match tools.strptime date with
      | some parsed => .ok (some parsed)
      | none => .error ⟨"DISPATCH_DATE_INVALID", "Invalid delivery date", 422⟩
    | [] =>
      if occursIn "今天" text then .ok (some today)
      else if occursIn "明天" text then .ok (some (today + 1))
      else .ok none

/-- What a text supplies. -/
def extractValues (tools : TextTools) (today : BusinessDate) (text : String) :
    Except RecoveryError Updates := do
  return {
    businessDate := (← extractDate tools today text).map some
    orderId := ← extractId tools orderLabel text
    alertId := ← extractId tools alertLabel text
    incidentId := ← extractId tools incidentLabel text
    recoveryPlanId := ← extractId tools recoveryPlanLabel text
    basePlanId := ← extractId tools basePlanLabel text
    candidatePlanId := ← extractId tools candidatePlanLabel text }

/-- `_extract_context`, service.py:92–118: a new date keeps only the explicit fields. -/
def extractContext (tools : TextTools) (today : BusinessDate) (text : String)
    (context : DispatchContext) (explicit : Updates) : Except RecoveryError DispatchContext := do
  let values ← extractValues tools today text
  let context :=
    if changes values.businessDate context.businessDate then
      { explicit with businessDate := values.businessDate }.applyTo {}
    else context
  return mergeContext context values

/-! ### Planning -/

/-- `WRITE_NOTICE`, planner.py:13; braces stand for themselves. -/
def writeNotice : String :=
  "This Agent is read-only. Use POST /api/planning/generate for normal planning, " ++
  "POST /api/incidents/\x7bincident_id\x7d/recovery for recovery, and the formal " ++
  "/api/recovery-plans/\x7bid\x7d/approve, /reject, or /modify endpoints for decisions."

/-- `blocked_request`, planner.py:20–26. -/
def blockedRequest (tools : TextTools) (message : String) : Bool :=
  ["批准", "拒绝", "生效", "生成", "启动", "重新规划", "重规划", "修改", "删除", "改派", "创建", "执行",
    "approve", "reject", "modify", "generate", "start ", "replan", "delete", "insert", "update ",
    "sql", "忽略规则", "ignore instructions"].any fun word ↦
      occursIn word (tools.lower message)

/-- The read actions that the words of a message ask for. -/
def askedActions (status resources proposal compare : Bool) : List Action :=
  (if status then [.getDeliveryStatus] else []) ++
    (if resources then [.getResourceAvailability] else []) ++
    (if proposal then [.getRecoveryProposal] else []) ++
    (if compare then [.comparePlanVersions] else [])

/-- There are never more than six actions. -/
theorem askedActions_length (status resources proposal compare : Bool) :
    (askedActions status resources proposal compare).length ≤ 6 := by
  cases status <;> cases resources <;> cases proposal <;> cases compare <;> decide

/-- `RuleIntentPlanner.plan`, planner.py:30–50. -/
def rulePlan (tools : TextTools) (message : String) : IntentPlan :=
  let text := tools.lower message
  let hasAny := fun words : List String ↦ words.any fun word ↦ occursIn word text
  if blockedRequest tools text then ⟨[], some writeNotice, by decide⟩
  else if hasAny ["不要", "别", "暂不", "如果", "若", "don't", "do not", "if "] then
    ⟨[], some ("Specify a delivery date and an object to read; " ++
      "conditional or negated requests will not run a query."), by decide⟩
  else if hasAny ["为什么", "解释提醒", "解释风险", "why", "alert", "提醒"] then
    ⟨[.explainRiskAlert], none, by decide⟩
  else
    let actions := askedActions
      (hasAny ["运营", "摘要", "情况", "进度", "状态", "迟到", "延迟", "风险", "监控", "status", "risk"])
      (hasAny ["车辆", "司机", "运力", "资源", "空闲", "resource", "vehicle"])
      (hasAny ["候选", "查看方案", "解释方案", "恢复方案", "recovery", "proposal"])
      (hasAny ["比较", "对比", "差异", "compare"])
    ⟨actions, if actions = [] then
        some ("Choose operations, resources, recovery, plan comparison, or an alert explanation, " ++
          "and provide a date or ID.")
      else none, askedActions_length _ _ _ _⟩

/-! ### Requests -/

/-- `DispatchCommand`, contracts.py:27. -/
structure DispatchCommand where
  message : String
  context : Updates := {}
  contextToken : Option String := none
  deriving DecidableEq, Repr

/-- Why a query of an action failed: with a business code, or otherwise. -/
inductive ToolFailure where
  | business (code : String)
  | other
  deriving DecidableEq, Repr

/-- `ToolObservation`; the data of a success is a list of facts. -/
structure ToolObservation where
  tool : Action
  success : Bool
  code : String
  data : List String
  deriving DecidableEq, Repr

/-- `DispatchReply.status`. -/
inductive ReplyStatus where
  | completed
  | needsInput
  | failed
  deriving DecidableEq, Repr

/-- `DispatchReply`; the token stands for its payload. -/
structure DispatchReply where
  status : ReplyStatus
  message : String
  context : DispatchContext
  observations : List ToolObservation
  plannerSource : String
  token : TokenPayload
  deriving DecidableEq, Repr

/-- What surrounds one request: the clocks, the model planner (absent, failing or answering), the
queries and the arrangement of facts into a message. -/
structure Surroundings where
  decodedAt : Instant
  today : BusinessDate
  repliedAt : Instant
  planner : Option (String → DispatchContext → Option IntentPlan)
  execute : Action → DispatchContext → Except ToolFailure (List String)
  arrange : List ToolObservation → String

/-- `_missing`, service.py:133–139. -/
def missing (action : Action) (context : DispatchContext) : Option String :=
  if action ∈ [.getDeliveryStatus, .getResourceAvailability, .explainRiskAlert] ∧
      context.businessDate = none then
    some "Provide a delivery date, for example 2026-09-25."
  else if action ∈ [.getRecoveryProposal, .comparePlanVersions] ∧ context.recoveryPlanId = none then
    some "Please select a recovery option first so I can show the right proposal."
  else if action = .explainRiskAlert ∧ context.orderId = none ∧ context.alertId = none then
    some "Please select an order or alert so I can explain the right risk."
  else none

/-- How the loop over the actions ends. -/
structure Performed where
  status : ReplyStatus
  message : Option String
  observations : List ToolObservation
  pending : List Action

/-- The loop over the actions, service.py:52–73. -/
def perform (around : Surroundings) (context : DispatchContext) :
    List Action → List ToolObservation → Performed
  | [], observations => ⟨.completed, none, observations, []⟩
  | action :: rest, observations =>
    match missing action context with
    | some message => ⟨.needsInput, some message, observations, action :: rest⟩
    | none =>
      match around.execute action context with
      | .ok data =>
        perform around context rest (observations ++ [⟨action, true, "SUCCESS", data⟩])
      | .error (.business code) =>
        ⟨.failed, some (if code = "ALERT_NOT_FOUND" then
            "I couldn't find a matching alert for that delivery date. " ++
              "Please check the selected order or alert."
          else "I couldn't retrieve that information. " ++
            "Please check the delivery date and your selection."),
          observations ++ [⟨action, false, code, []⟩], []⟩
      | .error .other =>
        ⟨.failed, some "The query is temporarily unavailable. Please try again.",
          observations ++ [⟨action, false, "DISPATCH_TOOL_FAILED", []⟩], []⟩

/-- The plan of a request and where it is from, service.py:37–50. -/
def choosePlan (tools : TextTools) (around : Surroundings) (message : String)
    (context : DispatchContext) (pending : List Action) (rules : IntentPlan) :
    IntentPlan × String :=
  let answerOnly := tools.fullmatchIgnoreCase
    ("(?:继续|就这个|今天|明天|(?:订单|提醒|告警|恢复方案|恢复尝试|order_id|alert_id|recovery_plan_id)" ++
      "\\s*[:：=]?\\s*" ++ uuidPattern ++ "|\\d{4}-\\d{2}-\\d{2})") (tools.strip message)
  if h : pending ≠ [] ∧ answerOnly = true ∧ pending.length ≤ 6 then
    (⟨pending, none, h.2.2⟩, "rules")
  else
    match around.planner with
    | none => (rules, "rules")
    | some planner =>
      match planner message context with
      | none => (rules, "fallback")
      | some plan =>
        if plan.actions.Nodup then
          if plan.clarification.any (· ≠ "") then
            (⟨[], some "Specify what to query and provide a delivery date or ID.", by decide⟩,
              "model")
          else (plan, "model")
        else (rules, "fallback")

/-- What the token of a request brings back, service.py:27; an empty token is none. -/
def startContext (codec : ContextCodec) (around : Surroundings) (command : DispatchCommand)
    (subject : String) : Except RecoveryError (DispatchContext × List Action) :=
  match command.contextToken with
  | some token =>
    if token = "" then .ok ({}, []) else codec.decodeState token subject around.decodedAt
  | none => .ok ({}, [])

/-- The explicit fields go into the context first, service.py:28–31. -/
def mergeExplicit (context : DispatchContext) (updates : Updates) : DispatchContext :=
  mergeContext (if changes updates.businessDate context.businessDate then {} else context) updates

/-- The context that a request works in and the actions that its token left. -/
def readContext (codec : ContextCodec) (tools : TextTools) (around : Surroundings)
    (command : DispatchCommand) (subject : String) :
    Except RecoveryError (DispatchContext × List Action) := do
  let start ← startContext codec around command subject
  let context ← extractContext tools around.today command.message
    (mergeExplicit start.1 command.context) command.context
  return (context, start.2)

/-- `DispatchService.run`, service.py:25–79. -/
def run (codec : ContextCodec) (tools : TextTools) (around : Surroundings)
    (command : DispatchCommand) (subject : String) : Except RecoveryError DispatchReply := do
  let (context, pending) ← readContext codec tools around command subject
  let reply := fun status message observations source pendingActions ↦
    (⟨status, message, context, observations, source,
      codec.encodePayload context subject pendingActions around.repliedAt⟩ : DispatchReply)
  let rules := rulePlan tools command.message
  let negated := rules.clarification.any (· ≠ "") &&
    ["不要", "别", "如果", "若", "do not", "don't", "if "].any fun word ↦
      occursIn word (tools.lower command.message)
  if blockedRequest tools command.message || negated then
    return reply .needsInput (rules.clarification.getD writeNotice) [] "rules" []
  let (plan, source) := choosePlan tools around command.message context pending rules
  let performed := perform around context plan.actions []
  if performed.status = .completed ∧ performed.observations = [] then
    return reply .needsInput (plan.clarification.getD "Specify what you would like to query.") []
      source []
  return reply performed.status
    (performed.message.getD (around.arrange performed.observations)) performed.observations source
    performed.pending

end PenroseRoute.Dispatch
