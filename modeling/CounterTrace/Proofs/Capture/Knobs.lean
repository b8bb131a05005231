import CounterTrace.Control

/-!
# Writing knobs

A knob that is written is refused, or is set to the value that was written, or asks for a start, a
stop or a dump.  Whether it is refused depends on the knob and the text alone, not on the control
block.

    c.SetTo knob v c' → c'.read knob = v, and c' is otherwise as c
    c.read knob for all knobs, c.activePeriod and c.overflows make up c         (eq_of_read)
    c.write knob raw = .error e, .ok (none, c') or .ok (some request, c)    (write_outcomes)
    c.write knob raw = .error e ↔ Refused knob raw e                    (write_eq_error_iff)
-/

namespace CounterTrace

/-! ## Refusals and requests -/

/-- Why a knob cannot be written. -/
inductive Refused : Knob → String → KnobError → Prop where
  | unparsed {knob : Knob} {raw : String} {e : KnobError} (hraw : parseValue raw = .error e) :
    Refused knob raw e
  | noSelector {i : Nat} {raw : String} {v : UInt32} (hraw : parseValue raw = .ok v)
      (hi : 4 ≤ i) :
    Refused (.event i) raw (.noSelector i)
  | unknownStatus {raw : String} {v : UInt32} (hraw : parseValue raw = .ok v) (hv : 2 < v) :
    Refused .status raw (.unknownStatus v)

def StatusRequest.code : StatusRequest → UInt32
  | stop => 0
  | start => 1
  | dump => 2

/-- Whether a written knob is a request. -/
def Asks (request : StatusRequest) (knob : Knob) (raw : String) : Prop :=
  knob = .status ∧ parseValue raw = .ok request.code

theorem Status.eq_of_code_eq {s s' : Status} (h : s.code = s'.code) : s = s' := by
  have hcode := congrArg ofCode? h
  simpa only [ofCode?_code, Option.some.injEq] using hcode

/-- Three codes stand for a status. -/
theorem Status.ofCode?_cases (v : UInt32) :
    (∃ status : Status, v = status.code) ∨ 2 < v ∧ ofCode? v = none := by
  by_cases h0 : v = 0
  · exact .inl ⟨.stopped, h0⟩
  by_cases h1 : v = 1
  · exact .inl ⟨.running, h1⟩
  by_cases h2 : v = 2
  · exact .inl ⟨.dump, h2⟩
  refine .inr ⟨by grind, ?_⟩
  simp only [ofCode?, h0, h1, h2, if_false]

namespace Control

variable {c c' : Control} {knob : Knob} {raw : String}

/-! ## Reading back -/

/-- What is read of the knobs, the period in effect and the number of overflows are all that a
control block holds. -/
theorem eq_of_read (hread : ∀ knob, c.read knob = c'.read knob)
    (hactive : c.activePeriod = c'.activePeriod) (hoverflows : c.overflows = c'.overflows) :
    c = c' := by
  have hperiod : c.period = c'.period := hread .period
  have hmissed : c.missed = c'.missed := hread .missed
  have hstatus : c.status = c'.status := Status.eq_of_code_eq (hread .status)
  have hevents : c.events = c'.events := by
    refine Vector.ext fun i hi => ?_
    simpa [read, eventSelect?, hi] using hread (.event i)
  obtain ⟨period, activePeriod, events, status, missed, overflows⟩ := c
  simp only at hperiod hactive hevents hstatus hmissed hoverflows
  subst hperiod hactive hevents hstatus hmissed hoverflows
  rfl

/-- A control block that differs from another one in a knob at most. -/
structure SetTo (c : Control) (knob : Knob) (v : UInt32) (c' : Control) : Prop where
  read : c'.read knob = v
  others : ∀ other, other ≠ knob → c'.read other = c.read other
  activePeriod : c'.activePeriod = c.activePeriod
  overflows : c'.overflows = c.overflows

/-- The value of the knob leaves nothing open. -/
theorem SetTo.unique {v : UInt32} {d : Control} (h : c.SetTo knob v c') (h' : c.SetTo knob v d) :
    c' = d := by
  refine eq_of_read (fun other => ?_) (h.activePeriod.trans h'.activePeriod.symm)
    (h.overflows.trans h'.overflows.symm)
  by_cases hother : other = knob
  · rw [hother, h.read, h'.read]
  · rw [h.others other hother, h'.others other hother]

/-- What the knob was set to before does not show. -/
theorem SetTo.trans {v v' : UInt32} {d : Control} (h : c.SetTo knob v c')
    (h' : c'.SetTo knob v' d) : c.SetTo knob v' d where
  read := h'.read
  others other hother := (h'.others other hother).trans (h.others other hother)
  activePeriod := h'.activePeriod.trans h.activePeriod
  overflows := h'.overflows.trans h.overflows

theorem SetTo.status {v : UInt32} (h : c.SetTo knob v c') (hknob : knob ≠ .status) :
    c'.status = c.status :=
  Status.eq_of_code_eq (h.others .status hknob.symm)

/-- A knob that takes a value is set to it. -/
theorem setTo_of_set {v : UInt32} {request : Option StatusRequest} (hknob : knob ≠ .status)
    (h : c.set v knob = .ok (request, c')) : request = none ∧ c.SetTo knob v c' := by
  cases knob with
  | status => exact absurd rfl hknob
  | period =>
    cases h
    refine ⟨rfl, rfl, fun other hother => ?_, rfl, rfl⟩
    cases other with
    | period => exact absurd rfl hother
    | _ => rfl
  | missed =>
    cases h
    refine ⟨rfl, rfl, fun other hother => ?_, rfl, rfl⟩
    cases other with
    | missed => exact absurd rfl hother
    | _ => rfl
  | event i =>
    simp only [set] at h
    split at h
    · next hi =>
      cases h
      refine ⟨rfl, ?_, fun other hother => ?_, rfl, rfl⟩
      · simp [Control.read, eventSelect?, hi]
      · cases other with
        | event k =>
          have hik : i ≠ k := fun heq => hother (by rw [heq])
          simp only [Control.read, eventSelect?, Vector.getElem?_set_ne hi hik]
        | _ => rfl
    · cases h

/-- A knob takes no value only if there is no such event selector. -/
theorem set_eq_error {v : UInt32} {e : KnobError} (hknob : knob ≠ .status)
    (h : c.set v knob = .error e) : ∃ i, knob = .event i ∧ 4 ≤ i ∧ e = .noSelector i := by
  cases knob with
  | status => exact absurd rfl hknob
  | period => cases h
  | missed => cases h
  | event i =>
    simp only [set] at h
    split at h
    · cases h
    · next hi =>
      cases h
      exact ⟨i, rfl, Nat.le_of_not_lt hi, rfl⟩

/-- A status that is written is a request, unless its code is unknown. -/
theorem set_status (c : Control) (v : UInt32) :
    (∃ request : StatusRequest, v = request.code) ∨
      2 < v ∧ c.set v .status = .error (.unknownStatus v) := by
  rcases Status.ofCode?_cases v with ⟨status, rfl⟩ | ⟨hv, hcode⟩
  · refine .inl ?_
    cases status with
    | stopped => exact ⟨.stop, rfl⟩
    | running => exact ⟨.start, rfl⟩
    | dump => exact ⟨.dump, rfl⟩
  · refine .inr ⟨hv, ?_⟩
    simp only [set, hcode]

/-! ## Writing -/

theorem write_of_asks (c : Control) {request : StatusRequest} (h : Asks request knob raw) :
    c.write knob raw = .ok (some request, c) := by
  obtain ⟨rfl, hraw⟩ := h
  simp only [write, hraw]
  cases request <;> rfl

/-- All that can come of writing a knob. -/
theorem write_outcomes (c : Control) (knob : Knob) (raw : String) :
    (∃ e, Refused knob raw e ∧ c.write knob raw = .error e) ∨
    (knob ≠ .status ∧ ∃ v c', parseValue raw = .ok v ∧ c.SetTo knob v c' ∧
      c.write knob raw = .ok (none, c')) ∨
    ∃ request, Asks request knob raw ∧ c.write knob raw = .ok (some request, c) := by
  cases hraw : parseValue raw with
  | error e => exact .inl ⟨e, .unparsed hraw, by simp only [write, hraw]⟩
  | ok v =>
    have hwrite : c.write knob raw = c.set v knob := by simp only [write, hraw]
    by_cases hknob : knob = .status
    · subst hknob
      rcases c.set_status v with ⟨request, rfl⟩ | ⟨hv, hset⟩
      · exact .inr (.inr ⟨request, ⟨rfl, hraw⟩, c.write_of_asks ⟨rfl, hraw⟩⟩)
      · exact .inl ⟨_, .unknownStatus hraw hv, hwrite.trans hset⟩
    · cases hset : c.set v knob with
      | error e =>
        obtain ⟨i, rfl, hi, rfl⟩ := set_eq_error hknob hset
        exact .inl ⟨_, .noSelector hraw hi, hwrite.trans hset⟩
      | ok written =>
        obtain ⟨request, c'⟩ := written
        obtain ⟨rfl, hsetTo⟩ := setTo_of_set hknob hset
        exact .inr (.inl ⟨hknob, v, c', rfl, hsetTo, hwrite.trans hset⟩)

theorem write_eq_error_iff {e : KnobError} : c.write knob raw = .error e ↔ Refused knob raw e := by
  constructor
  · intro h
    rcases c.write_outcomes knob raw with
      ⟨e', hrefused, hwrite⟩ | ⟨-, _, _, -, -, hwrite⟩ | ⟨_, -, hwrite⟩
    · cases hwrite.symm.trans h
      exact hrefused
    · cases hwrite.symm.trans h
    · cases hwrite.symm.trans h
  · intro h
    cases h with
    | unparsed hraw => simp only [write, hraw]
    | noSelector hraw hi =>
      simp only [write, hraw, set]
      exact dif_neg (Nat.not_lt.2 hi)
    | @unknownStatus _ v hraw hv =>
      simp only [write, hraw]
      rcases c.set_status v with ⟨request, rfl⟩ | ⟨-, hset⟩
      · cases request <;> exact absurd hv (by decide)
      · exact hset

end Control

end CounterTrace
