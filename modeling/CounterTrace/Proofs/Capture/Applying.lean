import CounterTrace.Proofs.Capture.Pipeline

/-!
# Applying knobs

A knob that is applied to a capture is written to its control block, and then the capture does what
the knob asks for.

    c.apply knob raw = (.error e, c), (.ok (), c with the knob set) or (.ok (), c.granted request)
                                                                               (apply_outcomes)

Of the values that a knob takes the last one counts (`apply_apply`), and a knob that is refused
could as well not have been applied, at any point of a run:

    p.run (events.filter keep) = p.run events, if all that is left out is refused
                                                                           (run_filter_refused)
-/

namespace CounterTrace

namespace Capture

variable {σ : Type} [CounterSource σ]

/-- What a request does to a capture. -/
def granted (c : Capture σ) : StatusRequest → Capture σ
  | .start => c.start
  | .stop => c.stop
  | .dump => c

theorem apply_of_refused (c : Capture σ) {knob : Knob} {raw : String} {e : KnobError}
    (h : Refused knob raw e) : c.apply knob raw = (.error e, c) := by
  simp only [apply, Control.write_eq_error_iff.2 h]

theorem apply_of_asks (c : Capture σ) {knob : Knob} {raw : String} {request : StatusRequest}
    (h : Asks request knob raw) : c.apply knob raw = (.ok (), c.granted request) := by
  simp only [apply, c.control.write_of_asks h]
  cases request <;> rfl

/-- All that can come of applying a knob. -/
theorem apply_outcomes (c : Capture σ) (knob : Knob) (raw : String) :
    (∃ e, Refused knob raw e ∧ c.apply knob raw = (.error e, c)) ∨
    (knob ≠ .status ∧ ∃ v control, parseValue raw = .ok v ∧ c.control.SetTo knob v control ∧
      c.apply knob raw = (.ok (), { c with control := control })) ∨
    ∃ request, Asks request knob raw ∧ c.apply knob raw = (.ok (), c.granted request) := by
  rcases c.control.write_outcomes knob raw with
    ⟨e, hrefused, -⟩ | ⟨hknob, v, control, hraw, hset, hwrite⟩ | ⟨request, hasks, -⟩
  · exact .inl ⟨e, hrefused, c.apply_of_refused hrefused⟩
  · exact .inr (.inl ⟨hknob, v, control, hraw, hset, by simp only [apply, hwrite]⟩)
  · exact .inr (.inr ⟨request, hasks, c.apply_of_asks hasks⟩)

theorem apply_eq_error_iff (c : Capture σ) {knob : Knob} {raw : String} {e : KnobError} :
    (c.apply knob raw).1 = .error e ↔ Refused knob raw e := by
  constructor
  · intro h
    rcases c.apply_outcomes knob raw with
      ⟨e', hrefused, happly⟩ | ⟨-, _, _, -, -, happly⟩ | ⟨_, -, happly⟩
    · rw [happly] at h
      cases h
      exact hrefused
    · rw [happly] at h
      cases h
    · rw [happly] at h
      cases h
  · intro h
    rw [c.apply_of_refused h]

theorem apply_of_not_refused (c : Capture σ) {knob : Knob} {raw : String} (hknob : knob ≠ .status)
    (hraw : ∀ e, ¬ Refused knob raw e) :
    ∃ v control, parseValue raw = .ok v ∧ c.control.SetTo knob v control ∧
      c.apply knob raw = (.ok (), { c with control := control }) := by
  rcases c.apply_outcomes knob raw with ⟨e, he, -⟩ | ⟨-, hset⟩ | ⟨request, hasks, -⟩
  · exact absurd he (hraw e)
  · exact hset
  · exact absurd hasks.1 hknob

/-- The last value that a knob takes counts, whatever was applied to it before. -/
theorem apply_apply (c : Capture σ) {knob : Knob} (hknob : knob ≠ .status) (raw : String)
    {raw' : String} (hraw' : ∀ e, ¬ Refused knob raw' e) :
    (c.apply knob raw).2.apply knob raw' = c.apply knob raw' := by
  rcases c.apply_outcomes knob raw with
    ⟨e, -, happly⟩ | ⟨-, v, control, -, hset, happly⟩ | ⟨request, hasks, -⟩
  · rw [happly]
  · obtain ⟨v₁, control₁, hv₁, hset₁, happly₁⟩ :=
      apply_of_not_refused { c with control := control } hknob hraw'
    obtain ⟨v₂, control₂, hv₂, hset₂, happly₂⟩ := c.apply_of_not_refused hknob hraw'
    obtain rfl := Except.ok.inj (hv₁.symm.trans hv₂)
    obtain rfl := (hset.trans hset₁).unique hset₂
    rw [happly, happly₁, happly₂]
  · exact absurd hasks.1 hknob

end Capture

/-- **A knob does what it says.**  Applying a knob fails exactly where the text, the selector or
the status code is refused, and then the capture is what it was, with its control block, its pool,
the buffers of its cores and its counter source.  A knob that takes a value reads as this value
afterwards, and nothing else has changed; no other control block is like that.  Only a start changes
the period in effect, only a start or a stop the status, and a dump changes nothing. -/
theorem apply_changes_what_is_asked {σ : Type} [CounterSource σ] (c : Capture σ) (knob : Knob)
    (raw : String) :
    (∀ e, (c.apply knob raw).1 = .error e ↔ Refused knob raw e) ∧
    (∀ e, (c.apply knob raw).1 = .error e → (c.apply knob raw).2 = c) ∧
    (knob ≠ .status → (c.apply knob raw).1 = .ok () →
      ∃ v control, parseValue raw = .ok v ∧ (c.apply knob raw).2 = { c with control := control } ∧
        c.control.SetTo knob v control ∧ ∀ other, c.control.SetTo knob v other → other = control) ∧
    ((c.apply knob raw).2.control.activePeriod ≠ c.control.activePeriod →
      Asks .start knob raw) ∧
    ((c.apply knob raw).2.control.status ≠ c.control.status →
      Asks .start knob raw ∨ Asks .stop knob raw) ∧
    (Asks .dump knob raw → c.apply knob raw = (.ok (), c)) := by
  refine ⟨fun e => c.apply_eq_error_iff, ?_⟩
  have hdump : Asks .dump knob raw → c.apply knob raw = (.ok (), c) := c.apply_of_asks
  rcases c.apply_outcomes knob raw with
    ⟨e, -, happly⟩ | ⟨hknob, v, control, hraw, hset, happly⟩ | ⟨request, hasks, happly⟩
  · rw [happly] at hdump ⊢
    exact ⟨fun _ _ => rfl, fun _ h => (nomatch h), fun h => absurd rfl h, fun h => absurd rfl h,
      hdump⟩
  · rw [happly] at hdump ⊢
    have hunique : ∀ other, c.control.SetTo knob v other → other = control :=
      fun _ hother => hother.unique hset
    exact ⟨fun _ h => (nomatch h), fun _ _ => ⟨v, control, hraw, rfl, hset, hunique⟩,
      fun h => absurd hset.activePeriod h, fun h => absurd (hset.status hknob) h, hdump⟩
  · rw [happly] at hdump ⊢
    refine ⟨fun _ h => (nomatch h), fun hknob => absurd hasks.1 hknob, ?_, ?_, hdump⟩
    · intro hactive
      cases request with
      | start => exact hasks
      | stop => exact absurd rfl hactive
      | dump => exact absurd rfl hactive
    · intro hstatus
      cases request with
      | start => exact .inl hasks
      | stop => exact .inr hasks
      | dump => exact absurd rfl hstatus

/-! ## Runs -/

namespace Pipeline

variable {σ : Type} [CounterSource σ]

theorem step_of_refused (p : Pipeline σ) {knob : Knob} {raw : String} {e : KnobError}
    (h : Refused knob raw e) : p.step (.apply knob raw) = p := by
  simp only [step, p.capture.apply_of_refused h]

/-- A knob that is refused leaves no trace in a run, wherever it is applied: the run goes on as if
it had not been. -/
theorem run_filter_refused (p : Pipeline σ) (events : List (PipelineEvent σ))
    (keep : PipelineEvent σ → Bool)
    (hkeep : ∀ e ∈ events, keep e = false →
      ∃ knob raw why, e = .apply knob raw ∧ Refused knob raw why) :
    p.run (events.filter keep) = p.run events := by
  induction events generalizing p with
  | nil => rfl
  | cons e events ih =>
    obtain ⟨he, hevents⟩ := List.forall_mem_cons.1 hkeep
    cases hk : keep e with
    | true =>
      rw [List.filter_cons_of_pos hk]
      exact ih (p.step e) hevents
    | false =>
      obtain ⟨knob, raw, why, rfl, hrefused⟩ := he hk
      rw [List.filter_cons_of_neg (by rw [hk]; exact Bool.false_ne_true), ih p hevents]
      show p.run events = (p.step (.apply knob raw)).run events
      rw [p.step_of_refused hrefused]

end Pipeline

end CounterTrace
