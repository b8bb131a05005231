import CounterTrace.Capture.Setup
import CounterTrace.Proofs.Capture.Pipeline
import CounterTrace.Proofs.Session.Fields

/-!
# The period of a run

Settings raise the period to the smallest one that they allow before a capture is made of them.  An
assignment writes the period as it is, and the start raises it to the smallest period of any run.
Two periods that the start raises to the same one make no difference: of all that is done before,
only the last period written counts.

    clampPeriod c'.control.period = clampPeriod (requestedPeriod c.control.period assignments)
                                              when assignments lead from `c` to `c'`
                                                                        (clampPeriod_assignAll)
    period of the run = max Control.minPeriod (requestedPeriod s.effectivePeriod assignments)
                                                              (minPeriod_le_activePeriod_iff)
-/

namespace CounterTrace

/-! ## Raising a period -/

namespace Control

theorem clampPeriod_eq_max (p : UInt32) : clampPeriod p = max minPeriod p := by
  show (if p < minPeriod then minPeriod else p) = if minPeriod ≤ p then p else minPeriod
  by_cases h : p < minPeriod
  · rw [if_pos h, if_neg (UInt32.not_le.2 h)]
  · rw [if_neg h, if_pos (UInt32.not_lt.1 h)]

theorem le_clampPeriod_iff {q p : UInt32} : q ≤ clampPeriod p ↔ q ≤ minPeriod ∨ q ≤ p := by
  rw [clampPeriod]
  split
  · next h =>
    simp only [UInt32.lt_iff_toNat_lt] at h
    simp only [UInt32.le_iff_toNat_le]
    omega
  · next h =>
    simp only [UInt32.lt_iff_toNat_lt] at h
    simp only [UInt32.le_iff_toNat_le]
    omega

@[simp]
theorem clampPeriod_clampPeriod (p : UInt32) : clampPeriod (clampPeriod p) = clampPeriod p := by
  have h : ¬clampPeriod p < minPeriod :=
    UInt32.not_lt.2 (le_clampPeriod_iff.2 (.inl (UInt32.le_refl minPeriod)))
  rw [clampPeriod.eq_def (clampPeriod p), if_neg h]

/-- A knob that is written leaves the requested period alone, unless it is the period. -/
theorem period_of_write {c c' : Control} {knob : Knob} {raw : String}
    {request : Option StatusRequest} (h : c.write knob raw = .ok (request, c')) :
    ∃ v, parseValue raw = .ok v ∧ c'.period = if knob = .period then v else c.period := by
  rcases c.write_outcomes knob raw with
    ⟨_, -, hwrite⟩ | ⟨-, v, _, hraw, hset, hwrite⟩ | ⟨_, ⟨rfl, hraw⟩, hwrite⟩
  · cases hwrite.symm.trans h
  · obtain ⟨rfl, rfl⟩ := Prod.mk.injEq .. ▸ Except.ok.inj (hwrite.symm.trans h)
    refine ⟨v, hraw, ?_⟩
    by_cases hknob : knob = .period
    · subst hknob
      exact hset.read
    · rw [if_neg hknob]
      exact hset.others .period (Ne.symm hknob)
  · obtain ⟨rfl, rfl⟩ := Prod.mk.injEq .. ▸ Except.ok.inj (hwrite.symm.trans h)
    exact ⟨_, hraw, rfl⟩

end Control

/-- The settings raise the period to the smallest one that they allow. -/
theorem CaptureSettings.minPeriod_le_effectivePeriod (s : CaptureSettings) :
    s.minPeriod ≤ s.effectivePeriod := by
  show s.minPeriod ≤ if s.period ≤ s.minPeriod then s.minPeriod else s.period
  split
  · exact UInt32.le_refl _
  · next h => exact UInt32.le_of_lt (UInt32.not_le.1 h)

/-! ## Assignments -/

/-- The period that an assignment writes. -/
def writtenPeriod (assignment : String) : Option UInt32 :=
  match Text.splitOnce '=' assignment.toList with
  | none => none
  | some (name, value) =>
    if Knob.ofName? (String.ofList name) = some .period then
      (parseValue (String.ofList value)).toOption
    else none

/-- The period that is asked for after some assignments: the last one written, if any is. -/
def requestedPeriod (period : UInt32) (assignments : List String) : UInt32 :=
  (assignments.filterMap writtenPeriod).getLast?.getD period

theorem requestedPeriod_cons (period : UInt32) (assignment : String) (rest : List String) :
    requestedPeriod period (assignment :: rest) =
      requestedPeriod ((writtenPeriod assignment).getD period) rest := by
  rw [requestedPeriod, requestedPeriod, List.filterMap_cons]
  cases writtenPeriod assignment with
  | none => rfl
  | some v => simp [List.getLast?_cons]

/-- Two periods that a start raises to the same one make no difference to what is asked for. -/
theorem clampPeriod_requestedPeriod {p q : UInt32}
    (h : Control.clampPeriod p = Control.clampPeriod q) (assignments : List String) :
    Control.clampPeriod (requestedPeriod p assignments) =
      Control.clampPeriod (requestedPeriod q assignments) := by
  rw [requestedPeriod, requestedPeriod]
  cases (assignments.filterMap writtenPeriod).getLast? with
  | none => exact h
  | some v => rfl

namespace Capture

open Control

variable {σ : Type} [CounterSource σ] {c c' : Capture σ}

/-- A period that is written counts; a start on the way makes no difference to the next one. -/
theorem clampPeriod_apply {knob : Knob} {raw : String} (h : c.apply knob raw = (.ok (), c')) :
    ∃ v, parseValue raw = .ok v ∧
      clampPeriod c'.control.period = clampPeriod (if knob = .period then v else c.control.period) := by
  unfold apply at h
  cases hw : c.control.write knob raw with
  | error e =>
    rw [hw] at h
    cases h
  | ok r =>
    obtain ⟨request, control⟩ := r
    obtain ⟨v, hv, hperiod⟩ := Control.period_of_write hw
    rw [hw] at h
    refine ⟨v, hv, ?_⟩
    rw [← hperiod]
    cases request with
    | none =>
      cases h
      rfl
    | some request =>
      cases request with
      | start =>
        cases h
        exact clampPeriod_clampPeriod control.period
      | stop =>
        cases h
        rfl
      | dump =>
        cases h
        rfl

theorem clampPeriod_assign {text : String} (h : c.assign text = .ok c') :
    clampPeriod c'.control.period =
      clampPeriod ((writtenPeriod text).getD c.control.period) := by
  unfold assign at h
  unfold writtenPeriod
  cases hsplit : Text.splitOnce '=' text.toList with
  | none =>
    rw [hsplit] at h
    cases h
  | some parts =>
    obtain ⟨name, value⟩ := parts
    simp only [hsplit] at h ⊢
    cases hknob : Knob.ofName? (String.ofList name) with
    | none =>
      rw [hknob] at h
      cases h
    | some knob =>
      simp only [hknob] at h
      rcases happly : c.apply knob (String.ofList value) with ⟨r, c₁⟩
      rw [happly] at h
      cases r with
      | error why => cases h
      | ok =>
        cases h
        obtain ⟨v, hv, hperiod⟩ := clampPeriod_apply happly
        rw [hperiod, hv]
        by_cases hk : knob = .period
        · simp [hk, Except.toOption]
        · simp [hk]

/-- Of all assignments, only the last period written counts for the next start. -/
theorem clampPeriod_assignAll {texts : List String} (h : assignAll texts c = .ok c') :
    clampPeriod c'.control.period = clampPeriod (requestedPeriod c.control.period texts) := by
  induction texts generalizing c with
  | nil =>
    cases h
    rfl
  | cons text rest ih =>
    unfold assignAll at h
    cases hassign : c.assign text with
    | error e =>
      rw [hassign] at h
      cases h
    | ok c₁ =>
      rw [hassign] at h
      rw [ih h, requestedPeriod_cons]
      exact clampPeriod_requestedPeriod (clampPeriod_assign hassign) rest

end Capture

/-! ## The run -/

/-- **Only settings raise the period to their smallest.**  Whatever the settings are, after any
assignments that were carried out the run has the period that was written last, or else that of the
settings, raised to the smallest period of any run; and its session shows this period.  It reaches
the smallest period that the settings allow if and only if the period that was written last does, or
every period does.  Without a period written it always does. -/
theorem minPeriod_le_activePeriod_iff (s : CaptureSettings) (own : UInt32)
    {assignments : List String} {sim : Simulation} (h : s.prepare own assignments = .ok sim) :
    let period := sim.capture.control.activePeriod
    period = max Control.minPeriod (requestedPeriod s.effectivePeriod assignments) ∧
      sim.description.field? "period" = some (toString period.toNat) ∧
      (s.minPeriod ≤ period ↔
        s.minPeriod ≤ Control.minPeriod ∨
          s.minPeriod ≤ requestedPeriod s.effectivePeriod assignments) ∧
      (assignments.filterMap writtenPeriod = [] → s.minPeriod ≤ period) := by
  intro period
  have hperiod : period = Control.clampPeriod (requestedPeriod s.effectivePeriod assignments) := by
    unfold CaptureSettings.prepare at h
    cases hassign : (s.capture own).assignAll assignments with
    | error e =>
      rw [hassign] at h
      cases h
    | ok c =>
      rw [hassign] at h
      cases h
      exact Capture.clampPeriod_assignAll hassign
  refine ⟨hperiod.trans (Control.clampPeriod_eq_max _), Description.field?_period _ _, ?_, ?_⟩
  · rw [hperiod, Control.le_clampPeriod_iff]
  · intro hnone
    rw [hperiod, requestedPeriod, hnone]
    exact Control.le_clampPeriod_iff.2 (.inr s.minPeriod_le_effectivePeriod)

/-- Settings that allow no period below 50000. -/
def unhurried : Settings := { capture := { minPeriod := 50000 } }

theorem minPeriod_le_activePeriod_iff_unhurried :
    ∃ sim, unhurried.capture.prepare 1 ["ctr0=17", "period=60000", "ctr1=3"] = .ok sim ∧
      sim.description.field? "period" = some "60000" ∧
      unhurried.capture.minPeriod ≤ sim.capture.control.activePeriod := by
  have hsim : ∃ sim, unhurried.capture.prepare 1 ["ctr0=17", "period=60000", "ctr1=3"] = .ok sim :=
    ⟨_, rfl⟩
  obtain ⟨sim, hsim⟩ := hsim
  obtain ⟨hperiod, hfield, hiff, -⟩ := minPeriod_le_activePeriod_iff unhurried.capture 1 hsim
  refine ⟨sim, hsim, ?_, hiff.2 (.inr (by decide))⟩
  rw [hfield, hperiod]
  decide

/-- The settings pass every check, and yet the run has a period that they do not allow. -/
theorem written_period_below_minPeriod :
    unhurried.check = .ok () ∧
      ∃ sim, unhurried.capture.prepare 1 ["period=20000"] = .ok sim ∧
        sim.capture.control.activePeriod = 20000 ∧
        sim.description.field? "period" = some "20000" ∧
        ¬unhurried.capture.minPeriod ≤ sim.capture.control.activePeriod := by
  refine ⟨rfl, _, rfl, rfl, Description.field?_period _ _, by decide⟩

end CounterTrace
