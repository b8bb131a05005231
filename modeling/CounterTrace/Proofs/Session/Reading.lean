import CounterTrace.Session

/-!
# What a session reads

Of a source a session drops the first buffers, takes a baseline, and then reads buffer after buffer
with the samples missed until each, until the source ends or something fails.

    Readout w source missed items failure     what is read, and the failure that ends it
    batches w source missed = items.map .ok ++ failure                       (Readout.batches_eq)
-/

namespace CounterTrace

/-- Every buffer comes with the samples missed since the baseline, or none if there are fewer than
then; the readings are numbered from `first`. -/
def Stamped (missed : MissedReadings) (baseline : UInt32) (first : Nat)
    (items : List (Buffer × UInt32)) : Prop :=
  ∀ i (h : i < items.length), ∃ reading, missed (first + i) = .ok reading ∧
    items[i].2.toNat = reading.toNat - baseline.toNat

/-- Why no further buffer is read from a source, with the reading that would come next. -/
inductive ReadingStops (reading : Except Failure UInt32) : BufferSource → Option Failure → Prop
  | ended : ReadingStops reading [] none
  | source (f : Failure) (rest : BufferSource) : ReadingStops reading (.error f :: rest) (some f)
  | counter (b : Buffer) (rest : BufferSource) {f : Failure} (h : reading = .error f) :
      ReadingStops reading (.ok b :: rest) (some f)

/-- What is read of a source after the warm-up, and the failure that ends the reading if one does. -/
inductive Readout (warmup : Nat) (source : BufferSource) (missed : MissedReadings) :
    List (Buffer × UInt32) → Option Failure → Prop
  | endedEarly (first : List Buffer) (hsource : source = first.map .ok)
      (hwarmup : first.length < warmup) : Readout warmup source missed [] none
  | failedEarly (first : List Buffer) {f : Failure} {rest : BufferSource}
      (hsource : source = first.map .ok ++ .error f :: rest) (hwarmup : first.length < warmup) :
      Readout warmup source missed [] (some (.within "reading warm-up buffer" f))
  | noBaseline (first : List Buffer) {rest : BufferSource} {f : Failure}
      (hsource : source = first.map .ok ++ rest) (hwarmup : first.length = warmup)
      (hbaseline : missed 0 = .error f) :
      Readout warmup source missed [] (some (.within "reading missed baseline" f))
  | stamped (first : List Buffer) {items : List (Buffer × UInt32)} {rest : BufferSource}
      {failure : Option Failure} {baseline : UInt32}
      (hsource : source = first.map .ok ++ (items.map (.ok ·.1) ++ rest))
      (hwarmup : first.length = warmup) (hbaseline : missed 0 = .ok baseline)
      (hitems : Stamped missed baseline 1 items)
      (hstops : ReadingStops (missed (1 + items.length)) rest failure) :
      Readout warmup source missed items failure

theorem toNat_missedSince (baseline reading : UInt32) :
    (missedSince baseline reading).toNat = reading.toNat - baseline.toNat := by
  unfold missedSince
  split
  · next h =>
    rw [UInt32.lt_iff_toNat_lt] at h
    rw [UInt32.toNat_zero]
    omega
  · next h =>
    rw [UInt32.lt_iff_toNat_lt] at h
    exact UInt32.toNat_sub_of_le _ _ (UInt32.le_iff_toNat_le.2 (by omega))

theorem Stamped.tail {missed : MissedReadings} {baseline : UInt32} {first : Nat}
    {item : Buffer × UInt32} {items : List (Buffer × UInt32)}
    (h : Stamped missed baseline first (item :: items)) :
    Stamped missed baseline (first + 1) items := by
  intro i hi
  obtain ⟨reading, hreading, hstamp⟩ := h (i + 1) (by simpa using hi)
  exact ⟨reading, by rw [← hreading]; congr 1; omega, hstamp⟩

theorem withMissed_eq {missed : MissedReadings} {baseline : UInt32}
    {items : List (Buffer × UInt32)} {rest : BufferSource} {failure : Option Failure} {first : Nat}
    (hitems : Stamped missed baseline first items)
    (hstops : ReadingStops (missed (first + items.length)) rest failure) :
    withMissed baseline missed first (items.map (.ok ·.1) ++ rest) =
      items.map .ok ++ (failure.map .error).toList := by
  induction items generalizing first with
  | nil =>
    cases hstops with
    | ended => rfl
    | source => rfl
    | counter b rest h =>
      rw [List.length_nil, Nat.add_zero] at h
      simp only [List.map_nil, List.nil_append, withMissed, h]
      rfl
  | cons item items ih =>
    obtain ⟨reading, hreading, hstamp⟩ := hitems 0 (by simp)
    have hmissed : missedSince baseline reading = item.2 :=
      UInt32.toNat_inj.1 ((toNat_missedSince ..).trans hstamp.symm)
    have hrest := ih hitems.tail (by
      rw [List.length_cons] at hstops
      rwa [Nat.add_assoc, Nat.add_comm 1])
    rw [Nat.add_zero] at hreading
    simp only [List.map_cons, List.cons_append, withMissed, hreading, hmissed, hrest]

theorem batches_warmup (first : List Buffer) (n : Nat) (rest : BufferSource)
    (missed : MissedReadings) :
    batches (first.length + n) (first.map .ok ++ rest) missed = batches n rest missed := by
  induction first with
  | nil => rw [List.length_nil, Nat.zero_add]; rfl
  | cons b first ih =>
    rw [List.length_cons, Nat.add_right_comm]
    exact ih

/-- What is read becomes the batches of a session, the failure at their end. -/
theorem Readout.batches_eq {warmup : Nat} {source : BufferSource} {missed : MissedReadings}
    {items : List (Buffer × UInt32)} {failure : Option Failure}
    (h : Readout warmup source missed items failure) :
    batches warmup source missed = items.map .ok ++ (failure.map .error).toList := by
  cases h with
  | endedEarly first hsource hwarmup =>
    obtain ⟨n, rfl⟩ : ∃ n, warmup = first.length + (n + 1) := ⟨warmup - first.length - 1, by omega⟩
    rw [hsource, ← List.append_nil (first.map _), batches_warmup]
    rfl
  | failedEarly first hsource hwarmup =>
    obtain ⟨n, rfl⟩ : ∃ n, warmup = first.length + (n + 1) := ⟨warmup - first.length - 1, by omega⟩
    rw [hsource, batches_warmup]
    rfl
  | noBaseline first hsource hwarmup hbaseline =>
    rw [hsource, ← hwarmup, ← Nat.add_zero first.length, batches_warmup, batches, hbaseline]
    rfl
  | stamped first hsource hwarmup hbaseline hitems hstops =>
    rw [hsource, ← hwarmup, ← Nat.add_zero first.length, batches_warmup, batches, hbaseline]
    exact withMissed_eq hitems hstops

theorem exists_stamped (missed : MissedReadings) (baseline : UInt32) (source : BufferSource)
    (first : Nat) : ∃ items rest failure, source = items.map (.ok ·.1) ++ rest ∧
      Stamped missed baseline first items ∧
      ReadingStops (missed (first + items.length)) rest failure := by
  induction source generalizing first with
  | nil => exact ⟨[], [], none, rfl, nofun, .ended⟩
  | cons item source ih =>
    cases item with
    | error f => exact ⟨[], .error f :: source, some f, rfl, nofun, .source f source⟩
    | ok b =>
      cases hreading : missed first with
      | error f => exact ⟨[], .ok b :: source, some f, rfl, nofun, .counter b source hreading⟩
      | ok reading =>
        obtain ⟨items, rest, failure, rfl, hitems, hstops⟩ := ih (first + 1)
        refine ⟨(b, missedSince baseline reading) :: items, rest, failure, rfl, ?_, ?_⟩
        · intro i hi
          cases i with
          | zero => exact ⟨reading, hreading, toNat_missedSince ..⟩
          | succ i =>
            obtain ⟨r, hr, hstamp⟩ := hitems i (by simpa using hi)
            exact ⟨r, by rw [← hr]; congr 1; omega, hstamp⟩
        · rw [List.length_cons, Nat.add_comm items.length, ← Nat.add_assoc]
          exact hstops

/-- Every source is read in some way. -/
theorem exists_readout (warmup : Nat) (source : BufferSource) (missed : MissedReadings) :
    ∃ items failure, Readout warmup source missed items failure := by
  induction warmup generalizing source with
  | zero =>
    cases hbaseline : missed 0 with
    | error f => exact ⟨[], _, .noBaseline [] rfl rfl hbaseline⟩
    | ok baseline =>
      obtain ⟨items, rest, failure, hsource, hitems, hstops⟩ :=
        exists_stamped missed baseline source 1
      exact ⟨items, failure, .stamped [] hsource rfl hbaseline hitems hstops⟩
  | succ n ih =>
    cases source with
    | nil => exact ⟨[], none, .endedEarly [] rfl (Nat.succ_pos n)⟩
    | cons item source =>
      cases item with
      | error f => exact ⟨[], _, .failedEarly [] rfl (Nat.succ_pos n)⟩
      | ok b =>
        obtain ⟨items, failure, h⟩ := ih source
        refine ⟨items, failure, ?_⟩
        cases h with
        | endedEarly first hsource hwarmup =>
          exact .endedEarly (b :: first) (by rw [hsource]; rfl) (Nat.succ_lt_succ hwarmup)
        | failedEarly first hsource hwarmup =>
          exact .failedEarly (b :: first) (by rw [hsource]; rfl) (Nat.succ_lt_succ hwarmup)
        | noBaseline first hsource hwarmup hbaseline =>
          exact .noBaseline (b :: first) (by rw [hsource]; rfl)
            (congrArg Nat.succ hwarmup) hbaseline
        | stamped first hsource hwarmup hbaseline hitems hstops =>
          exact .stamped (b :: first) (by rw [hsource]; rfl) (congrArg Nat.succ hwarmup)
            hbaseline hitems hstops

end CounterTrace
