import CounterTrace.Proofs.Identity.Looking
import CounterTrace.Proofs.Packet.Runs

/-!
# Names of batches

A batch looks its processes up in the order of its samples, and only its first look-up comes with
the permission to look at a known process again.  So from the second sample on a known process keeps
its entry, and a packet bears the entry that is there when the batch is done.

    lookUps allow ss                 the look-ups for samples, the first with permission `allow`
    cache_addSamples                 adding samples leaves the cache that their look-ups leave
    p.Bears cache                    `p` has the mode and the names that `cache` has of its process
    encodeBuffer_names               which processes are looked at, and what the packets bear
-/

namespace CounterTrace

variable {l : Type}

/-- A packet bears the mode and the names of the entry of its process. -/
def Packet.Bears (p : Packet) (cache : IdentityCache l) : Prop :=
  ∃ e, cache.get? p.header.pid = some e ∧ p.header.kernel = e.isKernel ∧
    p.cmdline = e.cmdline ∧ p.executable = e.executable

namespace PacketBuilder

/-- The look-ups for samples: all but the first come without permission. -/
def lookUps (allow : Bool) : List Sample → List (UInt32 × Bool)
  | [] => []
  | s :: ss => (s.pid, allow) :: lookUps false ss

theorem lookUps_append (allow : Bool) (before after : List Sample) :
    lookUps allow (before ++ after) =
      lookUps allow before ++ lookUps (allow && before.isEmpty) after := by
  induction before generalizing allow with
  | nil => simp [lookUps]
  | cons s before ih => simp [lookUps, ih]

theorem pid_of_mem_lookUps {allow : Bool} {ss : List Sample} {call : UInt32 × Bool}
    (h : call ∈ lookUps allow ss) : ∃ s ∈ ss, call.1 = s.pid := by
  induction ss generalizing allow with
  | nil => cases h
  | cons s ss ih =>
    rcases List.mem_cons.1 h with rfl | h
    · exact ⟨s, List.mem_cons_self, rfl⟩
    · obtain ⟨t, ht, hpid⟩ := ih h
      exact ⟨t, List.mem_cons_of_mem _ ht, hpid⟩

theorem not_allowed_of_mem_lookUps (ss : List Sample) :
    ∀ call ∈ lookUps false ss, call.2 = false := by
  induction ss with
  | nil => simp [lookUps]
  | cons s ss ih =>
    intro call hcall
    rcases List.mem_cons.1 hcall with rfl | hcall
    · rfl
    · exact ih call hcall

variable [MetadataLoader l] {core missed : UInt32}

/-- Adding samples asks the cache for their processes and nothing else. -/
theorem cache_addSamples (ss : List Sample) (b : PacketBuilder) (cache : IdentityCache l) :
    (addSamples core missed ss b cache).2.2 = cache.resolveAll (lookUps b.isEmpty ss) := by
  induction ss generalizing b cache with
  | nil => rfl
  | cons s ss ih =>
    simp only [addSamples, lookUps, IdentityCache.resolveAll]
    rw [ih]
    rfl

theorem cache_encodeBuffer (b : PacketBuilder) (buffer : Buffer) (cache : IdentityCache l)
    (missed : UInt32) :
    (b.encodeBuffer buffer cache missed).2.2 = cache.resolveAll (lookUps true buffer.samples) :=
  cache_addSamples buffer.samples b.startBatch cache

/-! ## What packets bear -/

/-- While look-ups come without permission, a packet goes on bearing the entry of its process. -/
theorem bears_resolveAll {cache : IdentityCache l} (hc : cache.Keyed) {p : Packet}
    (h : p.Bears cache) {calls : List (UInt32 × Bool)} (hcalls : ∀ call ∈ calls, call.2 = false) :
    p.Bears (cache.resolveAll calls) := by
  obtain ⟨e, hget, hbears⟩ := h
  exact ⟨e, IdentityCache.get?_resolveAll_known hc hcalls hget, hbears⟩

/-- The packet that a sample opens bears the entry that its look-up gave. -/
theorem bears_opened {cache : IdentityCache l} (hc : cache.Keyed) {b : PacketBuilder}
    (hnone : b.pending = none) (core missed : UInt32) (s : Sample) (allow : Bool) :
    ∃ p, (b.push core s (cache.resolve s.pid allow).1 missed).pending = some p ∧
      p.Bears (cache.resolve s.pid allow).2 := by
  refine ⟨_, rfl, (cache.resolve s.pid allow).1, ?_⟩
  rw [hnone]
  exact ⟨IdentityCache.get?_resolve_self hc s.pid allow, rfl, rfl, rfl⟩

/-- With a packet pending, all packets bear what the cache has when the samples are added: no entry
that is known by then changes any more. -/
theorem bears_of_mem_packetsOf (ss : List Sample) {b : PacketBuilder} {cache : IdentityCache l}
    (hc : cache.Keyed) {p : Packet} (hp : b.pending = some p) (hbears : p.Bears cache) :
    ∀ q ∈ packetsOf core missed ss b cache, q.Bears (cache.resolveAll (lookUps false ss)) := by
  -- carried along: the pending packet bears the entry that its process has by now
  induction ss generalizing b cache p with
  | nil =>
    intro q hq
    rw [packetsOf, addSamples, hp, List.nil_append] at hq
    rw [List.mem_singleton.1 hq]
    exact hbears
  | cons s ss ih =>
    have hfull : b.isEmpty = false := by rw [isEmpty, hp]; rfl
    have hcall : ∀ call ∈ [(s.pid, false)], call.2 = false := by simp
    have hbears' : p.Bears (cache.resolve s.pid false).2 := bears_resolveAll hc hbears hcall
    have hkeyed := hc.resolve s.pid false
    have hresolve : cache.resolve s.pid b.isEmpty =
        ((cache.resolve s.pid false).1, (cache.resolve s.pid false).2) := by rw [hfull]
    intro q hq
    cases hf : b.mustFlush core s (cache.resolve s.pid false).1 with
    | false =>
      rw [packetsOf_cons_of_stay hresolve ss hf] at hq
      have hpush : (b.push core s (cache.resolve s.pid false).1 missed).pending =
          some (extend p s) := by rw [push, hp]; rfl
      exact ih hkeyed hpush hbears' q hq
    | true =>
      rw [packetsOf_cons_of_flush hresolve ss hp hf] at hq
      rcases List.mem_cons.1 hq with rfl | hq
      · exact bears_resolveAll hkeyed hbears' (not_allowed_of_mem_lookUps ss)
      · obtain ⟨p', hp', hbears''⟩ := bears_opened hc (b := b.flush.2) rfl core missed s false
        exact ih hkeyed hp' hbears'' q hq

/-- The packets of a buffer bear the entries that are there when it is done. -/
theorem bears_of_mem_encodeBuffer (b : PacketBuilder) (buffer : Buffer) {cache : IdentityCache l}
    (hc : cache.Keyed) (missed : UInt32) :
    ∀ p ∈ (b.encodeBuffer buffer cache missed).1,
      p.Bears (b.encodeBuffer buffer cache missed).2.2 := by
  rw [cache_encodeBuffer, show (b.encodeBuffer buffer cache missed).1 =
    packetsOf buffer.core missed buffer.samples b.startBatch cache from rfl]
  cases buffer.samples with
  | nil =>
    intro p hp
    cases hp
  | cons s ss =>
    intro p hp
    rw [packetsOf_cons_of_stay (e := (cache.resolve s.pid true).1) rfl ss rfl] at hp
    obtain ⟨q, hq, hbears⟩ := bears_opened hc (b := b.startBatch) rfl buffer.core missed s true
    exact bears_of_mem_packetsOf ss (hc.resolve s.pid true) hq hbears p hp

/-! ## Which processes are looked at -/

/-- The processes that the loader is asked for while a buffer is turned into packets. -/
def askedFor (b : PacketBuilder) (buffer : Buffer) (cache : IdentityCache l) (missed : UInt32) :
    List UInt32 :=
  (b.encodeBuffer buffer cache.watched missed).2.2.loader.seen.map (·.1)

theorem askedFor_eq (b : PacketBuilder) (buffer : Buffer) (cache : IdentityCache l)
    (missed : UInt32) :
    b.askedFor buffer cache missed =
      (cache.history (lookUps true buffer.samples)).map (·.pid) := by
  rw [askedFor, cache_encodeBuffer, IdentityCache.seen_resolveAll]
  simp [IdentityCache.watched, IdentityCache.unwatched]

/-- Only the process of the first sample may be looked at again, and none is looked at twice. -/
theorem askedFor_once (b : PacketBuilder) (buffer : Buffer) {cache : IdentityCache l}
    (hc : cache.Keyed) (missed : UInt32) :
    (b.askedFor buffer cache missed).Nodup ∧ ∀ pid ∈ b.askedFor buffer cache missed,
      cache.get? pid = none ∨ buffer.samples.head?.map (·.pid) = some pid := by
  rw [askedFor_eq]
  cases buffer.samples with
  | nil => exact ⟨List.nodup_nil, fun pid hpid => by cases hpid⟩
  | cons s ss =>
    obtain ⟨hnodup, hunknown⟩ := IdentityCache.history_without_permission (hc.resolve s.pid true)
      (not_allowed_of_mem_lookUps ss)
    refine ⟨IdentityCache.nodup_history_cons hc hnodup fun look hlook =>
      (IdentityCache.unknown_of_resolve hc (hunknown look hlook)).1, fun pid hpid => ?_⟩
    obtain ⟨look, hlook, rfl⟩ := List.mem_map.1 hpid
    rcases List.mem_append.1 hlook with hlook | hlook
    · exact .inr (congrArg some (IdentityCache.pid_of_mem_looks hc hlook).symm)
    · exact .inl (IdentityCache.unknown_of_resolve hc (hunknown look hlook)).2

/-- **What a batch learns of its processes.**  While a buffer is turned into packets, no process is
looked at twice, a known one only if it is that of the first sample, and no entry changes but those
of the buffer's processes.  Every packet bears the mode and the names that the cache has of its
process in the end, so all packets of a process say the same of it. -/
theorem encodeBuffer_names {cache : IdentityCache l} (hc : cache.Reachable) (b : PacketBuilder)
    (buffer : Buffer) (missed : UInt32) :
    ∃ ps after, (b.encodeBuffer buffer cache missed).1 = ps ∧
      (b.encodeBuffer buffer cache missed).2.2 = after ∧
      (b.askedFor buffer cache missed).Nodup ∧
      (∀ pid ∈ b.askedFor buffer cache missed, (cache.get? pid).isSome = true →
        buffer.samples.head?.map (·.pid) = some pid) ∧
      (∀ pid, (∀ s ∈ buffer.samples, s.pid ≠ pid) → after.get? pid = cache.get? pid) ∧
      (∀ p ∈ ps, p.Bears after) ∧
      (∀ p ∈ ps, ∀ q ∈ ps, p.header.pid = q.header.pid →
        p.header.kernel = q.header.kernel ∧ p.cmdline = q.cmdline ∧
          p.executable = q.executable) := by
  obtain ⟨honce, hfirst⟩ := askedFor_once b buffer hc.keyed missed
  have hbears := bears_of_mem_encodeBuffer b buffer hc.keyed missed
  refine ⟨_, _, rfl, rfl, honce, ?_, ?_, hbears, ?_⟩
  · intro pid hpid hknown
    rcases hfirst pid hpid with hnone | hfirst
    · rw [hnone] at hknown
      cases hknown
    · exact hfirst
  · intro pid habsent
    rw [cache_encodeBuffer]
    refine (IdentityCache.resolveAll_of_not_asked hc.keyed fun call hcall => ?_).1
    obtain ⟨s, hs, hpid⟩ := pid_of_mem_lookUps hcall
    rw [hpid]
    exact habsent s hs
  · intro p hp q hq hpid
    obtain ⟨e, hget, hkernel, hcmdline, hexecutable⟩ := hbears p hp
    obtain ⟨e', hget', hkernel', hcmdline', hexecutable'⟩ := hbears q hq
    rw [hpid, hget', Option.some.injEq] at hget
    subst hget
    exact ⟨hkernel.trans hkernel'.symm, hcmdline.trans hcmdline'.symm,
      hexecutable.trans hexecutable'.symm⟩

/-- A process that shows its names late and changes them with every look. -/
def restless : MetadataScript where
  items := [(7, [⟨"", "", false⟩, ⟨"late", "/bin/late", false⟩, ⟨"later", "/bin/later", true⟩]),
    (9, [⟨"worker", "/bin/worker", true⟩])]

theorem encodeBuffer_names_restless :
    ((IdentityCache.new restless "zygote" 10).resolve 7 true).2.Reachable ∧
      ∃ ps, (PacketBuilder.encodeBuffer {} thereAndBack
          ((IdentityCache.new restless "zygote" 10).resolve 7 true).2 0).1 = ps ∧
        (∀ p ∈ ps, ∀ q ∈ ps, p.header.pid = q.header.pid →
          p.header.kernel = q.header.kernel ∧ p.cmdline = q.cmdline ∧
            p.executable = q.executable) ∧
        ps.map (·.cmdline) = ["late", "worker", "late"] ∧
        PacketBuilder.askedFor {} thereAndBack
          ((IdentityCache.new restless "zygote" 10).resolve 7 true).2 0 = [7, 9] := by
  have hc := (IdentityCache.Reachable.new restless "zygote" 10).resolve 7 true
  obtain ⟨ps, -, hps, -, -, -, -, -, hsame⟩ := encodeBuffer_names hc {} thereAndBack 0
  exact ⟨hc, ps, hps, hsame, by rw [← hps]; decide, by decide⟩

end PacketBuilder

end CounterTrace
