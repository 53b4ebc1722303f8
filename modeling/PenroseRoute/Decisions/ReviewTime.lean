import PenroseRoute.Decisions.Service
import PenroseRoute.Recovery.ReviewSchedule

/-!
# Approvals in time

The check of `service.py:127` against the review deadline: an approval that reads the context of
its option again passes until the deadline, when all vehicles with new stops can still reach
them in time, and not later.
-/

namespace PenroseRoute.Decisions

open PenroseRoute.Db PenroseRoute.Lib PenroseRoute.Recovery PenroseRoute.Optimization
open PenroseRoute.Operations

variable {context : RecoveryContext} {matrix : RoutingMatrix} {input : SolverInput}
  {result : SolverResult} {services : Services} {deadline now : Instant}

/-- Until the deadline no new stop is due. -/
theorem not_stale_of_isReviewDeadline {plan : DeliveryPlan}
    (h : IsReviewDeadline context input result plan deadline) (hnow : now ≤ deadline) :
    (plan.routes.any fun route ↦ (openNewStops route).any (·.plannedArrivalAt < now)) = false := by
  rw [List.any_eq_false]
  intro route hr
  rw [h.considered route hr, Bool.not_eq_true, List.any_eq_false]
  intro stop hs
  obtain ⟨fact, first, hfirst, hle⟩ := h.inTime now hnow route hr (List.ne_nil_of_mem hs)
  have harrival := hfirst.earliest stop hs
  rw [decide_eq_true_eq, Int.not_lt]
  refine Int.le_trans ?_ (Int.le_trans hle harrival)
  exact Int.le_add_of_nonneg_right (Int.mul_nonneg (Int.natCast_nonneg _) (by decide))

/-- The check of an approval that reads the context again lets it pass exactly until the
deadline. -/
theorem validateSchedule_iff {db : Database} {reviewable : Reviewable} {option : OptionSummary}
    {plan : DeliveryPlan} (h : IsReviewDeadline context input result plan deadline)
    (hdeadline : reviewDeadline services context plan = .ok deadline)
    (hroutes : reviewable.candidate.routes = plan.routes)
    (hoption : reviewable.recovery.options = some option)
    (hread : materializeRecoveryContext db reviewable.incident.id
      reviewable.recovery.replanningScope option.operationalTime = .ok context) :
    validateSchedule services db reviewable now = .ok () ↔ now ≤ deadline := by
  have hsame : reviewDeadline services context reviewable.candidate = .ok deadline := by
    rw [← hdeadline, reviewDeadline, reviewDeadline, hroutes]
  have hcheck : validateSchedule services db reviewable now = raiseFirst
      [(now > deadline || reviewable.candidate.routes.any fun route ↦
        (openNewStops route).any (·.plannedArrivalAt < now),
        .conflict "CANDIDATE_SCHEDULE_STALE")] := by
    rw [validateSchedule, hoption]
    dsimp only
    rw [hread]
    change (reviewDeadline services context reviewable.candidate >>= _) = _
    rw [hsame]
    rfl
  rw [hcheck, raiseFirst_cons_eq_ok, Bool.or_eq_false_iff, decide_eq_false_iff_not, Int.not_lt,
    hroutes]
  constructor
  · exact fun hok ↦ hok.1.1
  · exact fun hle ↦ ⟨⟨hle, not_stale_of_isReviewDeadline h hle⟩, raiseFirst_nil⟩

/-- For a candidate of an accepted result the review deadline is defined and safe: no lookup
fails, each route is judged by the first stop of its solver route, an approval until the deadline
lets every vehicle leave its start and reach that stop in time, and the deadline is not before
the current time of the context. An approval that reads the same context again passes its check
exactly until then. -/
theorem review_deadline_safe {db db' : Database} {roads : RoadRoutes} {candidate : DeliveryPlan}
    (hmatrix : services.buildDistanceTimeMatrix context.locations = .ok matrix)
    (hinput : buildRecoverySolverInput context matrix = .ok input)
    (haccepted : Accepted input result)
    (hcreated : createCandidate db context result roads = .ok (db', candidate)) :
    ∃ deadline, reviewDeadline services context candidate = .ok deadline ∧
      IsReviewDeadline context input result candidate deadline ∧
      ∀ {db : Database} {reviewable : Reviewable} {option : OptionSummary} {now : Instant},
        reviewable.candidate.routes = candidate.routes →
        reviewable.recovery.options = some option →
        materializeRecoveryContext db reviewable.incident.id
          reviewable.recovery.replanningScope option.operationalTime = .ok context →
        (validateSchedule services db reviewable now = .ok () ↔ now ≤ deadline) := by
  obtain ⟨deadline, hdeadline, hsafe⟩ := reviewDeadline_ok hmatrix hinput haccepted hcreated
  exact ⟨deadline, hdeadline, hsafe, validateSchedule_iff hsafe hdeadline⟩

-- The services of the handover.
private def handoverServices : Services :=
  ⟨fun _ ↦ .ok handoverMatrix, fun _ ↦ handoverResult, none⟩

-- The summary that the option of the handover is published with.
private def handoverOption : OptionSummary := ⟨101, 300000000, 0, false⟩

-- The rows of the option of the handover.
private def handoverReviewable : Reviewable where
  recovery := ⟨100, 60, 1, none, 40, some laterCandidate.2.id, .pendingReview, .crossRoute,
    some .feasible, some .valid, none, some handoverOption⟩
  base := handoverBase 2 1
  candidate := laterCandidate.2
  incident := handoverIncident

/-- The handover at the breakdown can be approved at the current time of its context, when
vehicle 10 leaves for the place of the breakdown, and not a moment later. -/
theorem review_deadline_safe_handover :
    reviewDeadline handoverServices laterContext laterCandidate.2 = .ok 300000000 ∧
      IsReviewDeadline laterContext laterInput handoverResult laterCandidate.2 300000000 ∧
      validateSchedule handoverServices (handoverDatabase 2 1) handoverReviewable 300000000 =
        .ok () ∧
      validateSchedule handoverServices (handoverDatabase 2 1) handoverReviewable 300000001 ≠
        .ok () := by
  have haccepted : Accepted laterInput handoverResult := ⟨rfl, rfl, by decide +kernel⟩
  have hcreated : createCandidate (handoverDatabase 2 1) laterContext handoverResult none =
      .ok (laterCandidate.1, laterCandidate.2) := rfl
  have hinput : buildRecoverySolverInput laterContext handoverMatrix = .ok laterInput := rfl
  have hmatrix : handoverServices.buildDistanceTimeMatrix laterContext.locations =
      .ok handoverMatrix := rfl
  obtain ⟨deadline, hdeadline, hsafe, happroval⟩ :=
    review_deadline_safe hmatrix hinput haccepted hcreated
  have hvalue : reviewDeadline handoverServices laterContext laterCandidate.2 =
      .ok 300000000 := by
    decide +kernel
  rw [hvalue] at hdeadline
  cases hdeadline
  have hread : materializeRecoveryContext (handoverDatabase 2 1) 60 .crossRoute 300000000 =
      .ok laterContext := rfl
  have hroutes : handoverReviewable.candidate.routes = laterCandidate.2.routes := rfl
  have hoption : handoverReviewable.recovery.options = some handoverOption := rfl
  exact ⟨hvalue, hsafe, (happroval hroutes hoption hread).mpr (by decide),
    mt (happroval hroutes hoption hread).mp (by decide)⟩

end PenroseRoute.Decisions
