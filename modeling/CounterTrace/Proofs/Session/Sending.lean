import CounterTrace.Proofs.Packet.Batches
import CounterTrace.Proofs.Session.Reading
import CounterTrace.Proofs.Session.Writing

/-!
# What a session sends

Over a transport that does not fail a session sends its description and then the batches of what it
reads, up to the end or to the first batch that takes it over its budget.

    s.HasSent cache options d t sent t'       the description and the batches of `sent` are sent
    HasSent … sent → HasSent … (sent ++ [b])  when the batch of `b` is sent     (HasSent.sendBatch)
    OverBudget cache options (items.take m)   for the first time where the session stops
                                                                                (HasSent.sendBatches)
-/

namespace CounterTrace

open PacketBuilder

/-! ## Batches one after the other -/

section
variable {l : Type} [MetadataLoader l]

theorem encodeBuffers_append (buffers more : List (Buffer × UInt32)) (b : PacketBuilder)
    (cache : IdentityCache l) :
    encodeBuffers (buffers ++ more) b cache =
      let (packets, b, cache) := encodeBuffers buffers b cache
      let (later, b, cache) := encodeBuffers more b cache
      (packets ++ later, b, cache) := by
  induction buffers generalizing b cache with
  | nil => rfl
  | cons buffer buffers ih =>
    simp only [List.cons_append, encodeBuffers, ih, List.append_assoc]

end

namespace Session

variable {l : Type} [MetadataLoader l]

/-- The packets of the batches of buffers, in a session that begins with a cache. -/
def packetsOf (cache : IdentityCache l) (sent : List (Buffer × UInt32)) : List Packet :=
  (encodeBuffers sent {} cache).1

/-- The bytes of these packets. -/
def wireOf (cache : IdentityCache l) (sent : List (Buffer × UInt32)) : List UInt8 :=
  (packetsOf cache sent).flatMap Packet.wire

/-- The packets take more than the budget, if there is one. -/
def OverBudget (cache : IdentityCache l) (options : SessionOptions)
    (sent : List (Buffer × UInt32)) : Prop :=
  0 < options.kbytesLimit ∧ options.kbytesLimit < (wireOf cache sent).length / 1000

/-- A session has sent its description and the batches of some buffers, and has counted them. -/
structure HasSent (cache : IdentityCache l) (options : SessionOptions) (d : Description)
    (t : Transport) (sent : List (Buffer × UInt32)) (s : Session l) (t' : Transport) : Prop where
  options : s.options = options
  encoder : (s.builder, s.cache) = (encodeBuffers sent {} cache).2
  stats : s.stats =
    { buffers := sent.length
      samples := ((packetsOf cache sent).flatMap (·.samples)).length
      packets := (packetsOf cache sent).length
      bytes := (wireOf cache sent).length
      missed := (sent.getLast?.map (·.2)).getD 0 }
  took : t.Took ((Frame.description d).wire ++ wireOf cache sent) t'
  flushed : sent ≠ [] → t'.Flushed

variable {cache : IdentityCache l} {options : SessionOptions} {d : Description}
  {t : Transport} {sent : List (Buffer × UInt32)} {s : Session l} {t' : Transport}

theorem not_overBudget_nil : ¬ OverBudget cache options [] := by
  rintro ⟨-, h⟩
  have hzero : (wireOf cache []).length / 1000 = 0 := Nat.zero_div 1000
  omega

/-- The bytes that a transport has sent are those of the description and of the batches. -/
theorem HasSent.bytesSent (h : HasSent cache options d t sent s t') :
    t'.bytesSent = t.bytesSent + (Frame.description d).wire.length + s.stats.bytes := by
  rw [h.took.bytesSent, h.stats, List.length_append, Nat.add_assoc]

theorem HasSent.exceeded_iff (h : HasSent cache options d t sent s t') :
    kbytesExceeded s.stats.bytes s.options.kbytesLimit = true ↔ OverBudget cache options sent := by
  rw [h.stats, h.options, kbytesExceeded, Bool.and_eq_true, decide_eq_true_iff,
    decide_eq_true_iff]
  rfl

theorem hasSent_new (ht : t.NeverRefuses) (cache : IdentityCache l) (options : SessionOptions)
    (d : Description) : ∃ t', t.send (.description d) = (.ok (Frame.description d).wire.length, t') ∧
      HasSent cache options d t [] (new cache options) t' := by
  obtain ⟨t', hsend, htook⟩ := t.send_took ht (.description d)
  refine ⟨t', hsend, rfl, rfl, rfl, ?_, fun h => absurd rfl h⟩
  rw [wireOf, packetsOf, encodeBuffers, List.flatMap_nil, List.append_nil]
  exact htook

/-- One more batch is sent, and nothing waits after it. -/
theorem HasSent.sendBatch (h : HasSent cache options d t sent s t') (b : Buffer × UInt32) :
    ∃ s₁ t₁, s.sendBatch b.1 b.2 t' = (.ok (), s₁, t₁) ∧
      HasSent cache options d t (sent ++ [b]) s₁ t₁ := by
  rcases hencode : s.builder.encodeBuffer b.1 s.cache b.2 with ⟨packets, builder, cache₁⟩
  have hsamples : packets.flatMap (·.samples) = b.1.samples := by
    rw [← (encodeBuffer_samples s.builder b.1 s.cache b.2).2, hencode]
  have hbuilder : (encodeBuffers sent {} cache).2.1 = s.builder := congrArg Prod.fst h.encoder.symm
  have hcache : (encodeBuffers sent {} cache).2.2 = s.cache := congrArg Prod.snd h.encoder.symm
  have happend : encodeBuffers (sent ++ [b]) {} cache =
      (packetsOf cache sent ++ packets, builder, cache₁) := by
    simp only [encodeBuffers_append, hbuilder, hcache, encodeBuffers, hencode, List.append_nil]
    rfl
  have hpackets : packetsOf cache (sent ++ [b]) = packetsOf cache sent ++ packets :=
    congrArg Prod.fst happend
  have hwire : wireOf cache (sent ++ [b]) = wireOf cache sent ++ packets.flatMap Packet.wire := by
    rw [wireOf, hpackets, List.flatMap_append]
    rfl
  obtain ⟨t₁, hsend, htook₁⟩ := t'.sendPackets_took h.took.neverRefuses packets
  obtain ⟨t₂, hflush, htook₂, hflushed⟩ := t₁.flush_took htook₁.neverRefuses
  let s₁ : Session l := { s with builder := builder, cache := cache₁ }
  refine ⟨s₁.accounted b.1 b.2 packets.length (packets.flatMap Packet.wire).length, t₂, ?_,
    h.options, ?_, ?_, ?_, fun _ => hflushed⟩
  · simp only [Session.sendBatch, hencode, hsend, hflush]
    rfl
  · exact (congrArg Prod.snd happend).symm
  · simp only [accounted, s₁, h.stats, hpackets, hwire, List.flatMap_append, hsamples,
      List.length_append, Buffer.length_samples, List.getLast?_concat, Option.map_some,
      Option.getD_some, List.length_singleton]
  · have htook := (h.took.trans htook₁).trans htook₂
    rwa [List.append_nil, List.append_assoc, ← hwire] at htook

/-! ## The run over all batches -/

/-- How a session ends that sends all that was read. -/
def endOf (atEnd : StopReason) (failure : Option Failure) : Except Failure StopReason :=
  match failure with
  | none => .ok atEnd
  | some f => .error f

/-- Batches are sent until one of them takes the session over its budget, or to the last. -/
theorem HasSent.sendBatches (h : HasSent cache options d t sent s t')
    (hbudget : ¬ OverBudget cache options sent) (atEnd : StopReason)
    (items : List (Buffer × UInt32)) (failure : Option Failure) :
    ∃ m ≤ items.length, ∃ result s₁ t₁,
      Session.sendBatches atEnd (items.map .ok ++ (failure.map .error).toList) s t' =
        (result, s₁, t₁) ∧
      HasSent cache options d t (sent ++ items.take m) s₁ t₁ ∧
      (∀ k < m, ¬ OverBudget cache options (sent ++ items.take k)) ∧
      (OverBudget cache options (sent ++ items.take m) ∧ result = .ok .byteLimit ∨
        ¬ OverBudget cache options (sent ++ items.take m) ∧ m = items.length ∧
          result = endOf atEnd failure) := by
  induction items generalizing sent s t' with
  | nil =>
    refine ⟨0, Nat.le_refl 0, endOf atEnd failure, s, t', ?_, by rwa [List.take_nil, List.append_nil],
      nofun, .inr ⟨by rwa [List.take_nil, List.append_nil], rfl, rfl⟩⟩
    cases failure <;> rfl
  | cons b items ih =>
    obtain ⟨s₁, t₁, hbatch, h₁⟩ := h.sendBatch b
    have htake : ∀ k, sent ++ (b :: items).take (k + 1) = (sent ++ [b]) ++ items.take k := by
      intro k
      rw [List.take_succ_cons, List.append_assoc]
      rfl
    have hfirst : ¬ OverBudget cache options (sent ++ (b :: items).take 0) := by
      rwa [List.take_zero, List.append_nil]
    by_cases hover : OverBudget cache options (sent ++ [b])
    · -- this batch is the first to go over the budget, and the last to be sent
      refine ⟨1, Nat.succ_le_succ (Nat.zero_le _), .ok .byteLimit, s₁, t₁, ?_, ?_, ?_, ?_⟩
      · simp only [List.map_cons, List.cons_append, Session.sendBatches, hbatch,
          h₁.exceeded_iff.2 hover, if_true]
      · exact h₁
      · intro k hk
        obtain rfl : k = 0 := by omega
        exact hfirst
      · exact .inl ⟨hover, rfl⟩
    · obtain ⟨m, hm, result, s₂, t₂, hrest, h₂, hbefore, hend⟩ := ih h₁ hover
      have hgo : kbytesExceeded s₁.stats.bytes s₁.options.kbytesLimit = false :=
        Bool.eq_false_iff.2 fun hexc => hover (h₁.exceeded_iff.1 hexc)
      refine ⟨m + 1, Nat.succ_le_succ hm, result, s₂, t₂, ?_, ?_, ?_, ?_⟩
      · simp only [List.map_cons, List.cons_append, Session.sendBatches, hbatch, hgo,
          Bool.false_eq_true, if_false, hrest]
      · rwa [htake]
      · intro k hk
        cases k with
        | zero => exact hfirst
        | succ k =>
          rw [htake]
          exact hbefore k (Nat.lt_of_succ_lt_succ hk)
      · rw [htake]
        exact hend.imp id fun ⟨hnot, hlast, hresult⟩ => ⟨hnot, congrArg Nat.succ hlast, hresult⟩

end Session

end CounterTrace
