import CounterTrace.Session

/-!
# Transports that do not fail

A transport whose sinks refuse nothing takes every frame whole.  Where the bytes are, handed over or
waiting, is left to the sink; once they are flushed none waits.

    b.taken                    what a sink was given so far, handed over or waiting
    t.Took bytes t'            `t'` is `t` after it took `bytes`
    t.send f = (.ok f.wire.length, t') with t.Took f.wire t'                  (Transport.send_took)
-/

namespace CounterTrace

/-- A sink that refuses no call, however many bytes it has taken. -/
def Sink.NeverRefuses (s : Sink) : Prop :=
  ∀ bytes call, ({ s with delivered := bytes } : Sink).refusal? call = none

namespace BufferedSink

/-- All bytes so far, in their order. -/
def taken (b : BufferedSink) : List UInt8 := b.sink.delivered ++ b.waiting

/-- What is left of a sink that has taken bytes. -/
structure Took (b : BufferedSink) (bytes : List UInt8) (b' : BufferedSink) : Prop where
  neverRefuses : b'.sink.NeverRefuses
  taken : b'.taken = b.taken ++ bytes

variable {b : BufferedSink} (hb : b.sink.NeverRefuses)
include hb

theorem deliver_eq (bytes : List UInt8) :
    b.deliver bytes = (.ok (), { b with
      sink := { b.sink with delivered := b.sink.delivered ++ bytes } }) := by
  have hnone : b.sink.refusal? .write = none := hb b.sink.delivered .write
  simp only [deliver, hnone]

theorem settle_took : ∃ b', b.settle = (.ok (), b') ∧ b.Took [] b' ∧ b'.waiting = [] := by
  cases hw : b.waiting with
  | nil =>
    refine ⟨b, ?_, ⟨hb, (List.append_nil _).symm⟩, hw⟩
    simp only [settle, hw, List.isEmpty_nil, if_true]
  | cons byte rest =>
    refine ⟨⟨{ b.sink with delivered := b.sink.delivered ++ b.waiting }, []⟩, ?_, ⟨hb, ?_⟩, rfl⟩
    · simp only [settle, hw, List.isEmpty_cons, Bool.false_eq_true, if_false, deliver_eq hb]
    · simp only [BufferedSink.taken, List.append_nil]

theorem enqueue_took (bytes : List UInt8) (hbytes : b.waiting = [] ∨ bytes.length < capacity) :
    ∃ b', b.enqueue bytes = (.ok (), b') ∧ b.Took bytes b' := by
  by_cases hlt : bytes.length < capacity
  · refine ⟨{ b with waiting := b.waiting ++ bytes }, ?_, hb, ?_⟩
    · simp only [enqueue, hlt, if_true]
    · simp only [BufferedSink.taken, List.append_assoc]
  · have hw : b.waiting = [] := hbytes.resolve_right hlt
    refine ⟨{ b with sink := { b.sink with delivered := b.sink.delivered ++ bytes } }, ?_, hb, ?_⟩
    · simp only [enqueue, hlt, if_false, deliver_eq hb]
    · simp only [BufferedSink.taken, hw, List.append_nil]

theorem write_took (bytes : List UInt8) :
    ∃ b', b.write bytes = (.ok (), b') ∧ b.Took bytes b' := by
  cases hbytes : bytes with
  | nil => exact ⟨b, by simp only [write, List.isEmpty_nil, if_true], hb, (List.append_nil _).symm⟩
  | cons byte rest =>
    rw [← hbytes]
    have hne : bytes.isEmpty = false := by rw [hbytes, List.isEmpty_cons]
    by_cases hroom : b.waiting.length + bytes.length ≤ capacity
    · have hfree : b.waiting = [] ∨ bytes.length < capacity := by
        cases hw : b.waiting with
        | nil => exact .inl rfl
        | cons =>
          rw [hw, List.length_cons] at hroom
          exact .inr (by omega)
      obtain ⟨b', henqueue, htook⟩ := enqueue_took hb bytes hfree
      exact ⟨b', by simp only [write, hne, Bool.false_eq_true, if_false, hroom, if_true, henqueue],
        htook⟩
    · obtain ⟨b₁, hsettle, htook₁, hw⟩ := settle_took hb
      obtain ⟨b', henqueue, htook⟩ := enqueue_took htook₁.neverRefuses bytes (.inl hw)
      refine ⟨b', ?_, htook.neverRefuses, ?_⟩
      · simp only [write, hne, Bool.false_eq_true, if_false, hroom, hsettle, henqueue]
      · rw [htook.taken, htook₁.taken, List.append_nil]

theorem settleThen_took (call : SinkCall) :
    ∃ b', b.settleThen call = (.ok (), b') ∧ b.Took [] b' ∧ b'.waiting = [] := by
  obtain ⟨b', hsettle, htook, hw⟩ := settle_took hb
  have hnone : b'.sink.refusal? call = none := htook.neverRefuses b'.sink.delivered call
  exact ⟨b', by simp only [settleThen, hsettle, hnone], htook, hw⟩

end BufferedSink

namespace Transport

/-- Neither sink refuses anything. -/
def NeverRefuses (t : Transport) : Prop :=
  t.out.sink.NeverRefuses ∧ ∀ m, t.mirror = some m → m.sink.NeverRefuses

/-- Nothing waits in front of a sink. -/
def Flushed (t : Transport) : Prop := t.out.waiting = [] ∧ ∀ m, t.mirror = some m → m.waiting = []

/-- What is left of a transport that has taken bytes. -/
structure Took (t : Transport) (bytes : List UInt8) (t' : Transport) : Prop where
  neverRefuses : t'.NeverRefuses
  out : t'.out.taken = t.out.taken ++ bytes
  mirror : t'.mirror.map (·.taken) = t.mirror.map (·.taken ++ bytes)
  bytesSent : t'.bytesSent = t.bytesSent + bytes.length

theorem Took.trans {t t₁ t' : Transport} {bytes more : List UInt8} (h₁ : t.Took bytes t₁)
    (h : t₁.Took more t') : t.Took (bytes ++ more) t' where
  neverRefuses := h.neverRefuses
  out := by rw [h.out, h₁.out, List.append_assoc]
  mirror := by
    have hcomp : t₁.mirror.map (·.taken ++ more) = (t₁.mirror.map (·.taken)).map (· ++ more) := by
      rw [Option.map_map]
      rfl
    rw [h.mirror, hcomp, h₁.mirror, Option.map_map]
    refine congrArg (t.mirror.map ·) (funext fun m => ?_)
    exact List.append_assoc ..
  bytesSent := by
    rw [h.bytesSent, h₁.bytesSent, List.length_append]
    omega

variable {t : Transport} (ht : t.NeverRefuses)
include ht

theorem took_nil : t.Took [] t where
  neverRefuses := ht
  out := (List.append_nil _).symm
  mirror := by simp only [List.append_nil]
  bytesSent := rfl

/-- A call of the second sink, if there is one, goes well. -/
theorem onMirror_took {act : BufferedSink → Except String Unit × BufferedSink} (context : String)
    {bytes : List UInt8} {Then : BufferedSink → Prop}
    (hact : ∀ m : BufferedSink, m.sink.NeverRefuses →
      ∃ m', act m = (.ok (), m') ∧ m.Took bytes m' ∧ Then m') :
    ∃ mirror, t.onMirror context act = (.ok (), { t with mirror := mirror }) ∧
      mirror.map (·.taken) = t.mirror.map (·.taken ++ bytes) ∧
      ∀ m, mirror = some m → m.sink.NeverRefuses ∧ Then m := by
  cases hm : t.mirror with
  | none =>
    have hsame : { t with mirror := none } = t := by rw [← hm]
    exact ⟨none, by simp only [onMirror, hm, hsame], rfl, nofun⟩
  | some m =>
    obtain ⟨m', hok, htook, hthen⟩ := hact m (ht.2 m hm)
    refine ⟨some m', by simp only [onMirror, hm, hok, refusedWithin], ?_, ?_⟩
    · simp only [Option.map_some, htook.taken]
    · rintro _ ⟨⟩
      exact ⟨htook.neverRefuses, hthen⟩

theorem send_took (f : Frame) :
    ∃ t', t.send f = (.ok f.wire.length, t') ∧ t.Took f.wire t' := by
  obtain ⟨out, hwrite, hout⟩ := BufferedSink.write_took ht.1 f.wire
  have hnext : NeverRefuses { t with out := out } := ⟨hout.neverRefuses, ht.2⟩
  obtain ⟨mirror, honMirror, hmirror, hm⟩ :=
    onMirror_took hnext "writing debug mirror" fun m h =>
      have ⟨m', hok, htook⟩ := BufferedSink.write_took h f.wire
      ⟨m', hok, htook, trivial⟩
  refine ⟨⟨out, mirror, t.bytesSent + f.wire.length⟩, ?_, ?_, hout.taken, hmirror, rfl⟩
  · simp only [send, hwrite, honMirror]
  · exact ⟨hout.neverRefuses, fun m h => (hm m h).1⟩

theorem flush_took : ∃ t', t.flush = (.ok (), t') ∧ t.Took [] t' ∧ t'.Flushed := by
  obtain ⟨out, hsettle, hout, hwaiting⟩ := BufferedSink.settleThen_took ht.1 .flush
  have hnext : NeverRefuses { t with out := out } := ⟨hout.neverRefuses, ht.2⟩
  obtain ⟨mirror, honMirror, hmirror, hm⟩ :=
    onMirror_took hnext "flushing debug mirror" fun m h => BufferedSink.settleThen_took h .flush
  refine ⟨⟨out, mirror, t.bytesSent⟩, ?_, ⟨?_, hout.taken, hmirror, rfl⟩, hwaiting,
    fun m h => (hm m h).2⟩
  · simp only [flush, hsettle, honMirror]
  · exact ⟨hout.neverRefuses, fun m h => (hm m h).1⟩

theorem finish_took : ∃ t', t.finish = (.ok (), t') ∧ t.Took [] t' ∧ t'.Flushed := by
  obtain ⟨t₁, hflush, htook₁, hflushed⟩ := flush_took ht
  obtain ⟨out, hclose, hout, hwaiting⟩ :=
    BufferedSink.settleThen_took htook₁.neverRefuses.1 .close
  refine ⟨{ t₁ with out := out }, by simp only [finish, hflush, hclose, refusedWithin],
    htook₁.trans ⟨⟨hout.neverRefuses, htook₁.neverRefuses.2⟩, hout.taken, ?_, rfl⟩,
    hwaiting, hflushed.2⟩
  simp only [List.append_nil]

theorem sendPackets_took (ps : List Packet) :
    ∃ t', sendPackets ps t = (.ok (ps.flatMap Packet.wire).length, t') ∧
      t.Took (ps.flatMap Packet.wire) t' := by
  induction ps generalizing t with
  | nil => exact ⟨t, rfl, took_nil ht⟩
  | cons p ps ih =>
    obtain ⟨t₁, hsend, htook₁⟩ := send_took ht (.packet p)
    obtain ⟨t', hrest, htook⟩ := ih htook₁.neverRefuses
    refine ⟨t', ?_, htook₁.trans htook⟩
    simp only [sendPackets, hsend, hrest, List.flatMap_cons, List.length_append]
    rfl

end Transport

end CounterTrace
