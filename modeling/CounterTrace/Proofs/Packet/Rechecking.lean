import CounterTrace.Proofs.Packet.Naming

/-!
# Re-checks in a batch

A process is looked up before the packet in front of it is closed.  So the first packet of a batch
looks at its process again where that is due, and a packet that opens later does not: its look-up
comes while another process's packet is pending, and it is stamped with what was known before.

    b.upTo buffer cache missed ss                  a batch as far as the samples `ss`
    b.OpensDue buffer cache missed before s        `s` opens a packet, and its process is due
    b.Rechecked buffer cache missed before s       … and is looked at before the packet is stamped
    rechecked_iff_first                            `before` is empty
-/

namespace CounterTrace

variable {l : Type}

namespace PacketBuilder

/-- Only a packet that a sample has just opened holds that sample alone. -/
theorem pending_eq_none_of_held_push {core : UInt32} {b : PacketBuilder} (hb : b.WorksFor core)
    {s : Sample} {e : Identity} {missed : UInt32} (h : (b.push core s e missed).held = [s]) :
    b.pending = none := by
  cases hp : b.pending with
  | none => rfl
  | some p =>
    have hnil : p.samples = [] := by simpa [held, push, hp, extend] using h
    exact absurd hnil (hb p hp).ne_nil

variable [MetadataLoader l]

theorem addSamples_append (core missed : UInt32) (before after : List Sample) (b : PacketBuilder)
    (cache : IdentityCache l) :
    (addSamples core missed (before ++ after) b cache).2 =
      (addSamples core missed after (addSamples core missed before b cache).2.1
        (addSamples core missed before b cache).2.2).2 := by
  induction before generalizing b cache with
  | nil => rfl
  | cons s before ih => exact ih _ _

theorem isEmpty_addSamples (core missed : UInt32) (ss : List Sample) (b : PacketBuilder)
    (cache : IdentityCache l) :
    (addSamples core missed ss b cache).2.1.isEmpty = (b.isEmpty && ss.isEmpty) := by
  induction ss generalizing b cache with
  | nil => simp [addSamples]
  | cons s ss ih =>
    simp only [addSamples]
    rw [ih]
    simp [isEmpty, push]

section
variable (b : PacketBuilder) (buffer : Buffer) (cache : IdentityCache l) (missed : UInt32)

/-- A batch as far as the samples `ss` of its buffer. -/
def upTo (ss : List Sample) : PacketBuilder × IdentityCache l :=
  (addSamples buffer.core missed ss b.startBatch cache).2

/-- What the loader has shown when a batch has come as far as the samples `ss`. -/
def shownUpTo (ss : List Sample) : List (UInt32 × Metadata) :=
  (b.upTo buffer cache.watched missed ss).2.loader.seen

/-- A sample of a buffer opens a packet, and its process is due for another look. -/
structure OpensDue (before : List Sample) (s : Sample) : Prop where
  within : before ++ [s] <+: buffer.samples
  opens : (b.upTo buffer cache missed (before ++ [s])).1.held = [s]
  due : ∃ e, (b.upTo buffer cache missed before).2.get? s.pid = some e ∧
    e.Due (b.upTo buffer cache missed before).2.earliestTemplate

/-- The process of a sample is looked at again before its packet is stamped: the packet bears what
that look shows. -/
def Rechecked (before : List Sample) (s : Sample) : Prop :=
  ∃ m p, b.shownUpTo buffer cache missed (before ++ [s]) =
      b.shownUpTo buffer cache missed before ++ [(s.pid, m)] ∧
    (b.upTo buffer cache missed (before ++ [s])).1.pending = some p ∧
    p.cmdline = m.cmdline ∧ p.executable = m.executable

/-- The process of a sample is not looked at, and the packet bears what was known of it. -/
def Unchecked (before : List Sample) (s : Sample) : Prop :=
  b.shownUpTo buffer cache missed (before ++ [s]) = b.shownUpTo buffer cache missed before ∧
    ∃ e p, (b.upTo buffer cache missed before).2.get? s.pid = some e ∧
      (b.upTo buffer cache missed (before ++ [s])).1.pending = some p ∧
      p.header.kernel = e.isKernel ∧ p.cmdline = e.cmdline ∧ p.executable = e.executable

theorem shownUpTo_concat (before : List Sample) (s : Sample) :
    b.shownUpTo buffer cache missed (before ++ [s]) =
      b.shownUpTo buffer cache missed before ++
        ((b.upTo buffer cache missed before).2.looks s.pid before.isEmpty).map
          fun look => (look.pid, look.shown) := by
  have hcache : (b.upTo buffer cache missed before).2 =
      cache.resolveAll (lookUps true before) := cache_addSamples before b.startBatch cache
  have hshown : ∀ ss, b.shownUpTo buffer cache missed ss =
      (cache.history (lookUps true ss)).map fun look => (look.pid, look.shown) := by
    intro ss
    rw [shownUpTo, upTo, cache_addSamples, IdentityCache.seen_resolveAll]
    rfl
  rw [hshown, hshown, hcache, lookUps_append, IdentityCache.history_append, List.map_append]
  simp [lookUps, IdentityCache.history]

variable {b buffer cache missed} {before : List Sample} {s : Sample}

/-- A packet that a sample opens is stamped with what the look-up of its process gives. -/
theorem stamped_of_opens (h : (b.upTo buffer cache missed (before ++ [s])).1.held = [s]) :
    ∃ p, (b.upTo buffer cache missed (before ++ [s])).1.pending = some p ∧
      p.header.kernel =
        ((b.upTo buffer cache missed before).2.resolve s.pid before.isEmpty).1.isKernel ∧
      p.cmdline = ((b.upTo buffer cache missed before).2.resolve s.pid before.isEmpty).1.cmdline ∧
      p.executable =
        ((b.upTo buffer cache missed before).2.resolve s.pid before.isEmpty).1.executable := by
  have hworks := (addSamples_samples missed before cache (worksFor_startBatch buffer.core b)).2.1
  have hempty := isEmpty_addSamples buffer.core missed before b.startBatch cache
  rw [show b.startBatch.isEmpty = true from rfl, Bool.true_and] at hempty
  rw [upTo, addSamples_append] at h ⊢
  simp only [upTo, ← hempty]
  generalize (addSamples buffer.core missed before b.startBatch cache).2 = r at *
  obtain ⟨b', c'⟩ := r
  simp only [addSamples] at h ⊢
  dsimp only at hworks
  cases hf : b'.mustFlush buffer.core s (c'.resolve s.pid b'.isEmpty).1 with
  | true => exact ⟨_, rfl, rfl, rfl, rfl⟩
  | false =>
    -- a sample that closes no packet opens one only where none is pending
    simp only [hf, Bool.false_eq_true, if_false] at h ⊢
    refine ⟨_, rfl, ?_⟩
    rw [pending_eq_none_of_held_push hworks h]
    exact ⟨rfl, rfl, rfl⟩

/-- **Only the first packet of a batch is re-checked.**  Where a sample opens a packet and its
process is due for another look, the process is looked at before the packet is stamped if and only
if the sample is the first of its buffer.  A packet that opens later bears what was known of its
process. -/
theorem rechecked_iff_first (hc : cache.Reachable)
    (h : b.OpensDue buffer cache missed before s) :
    (b.Rechecked buffer cache missed before s ↔ before = []) ∧
      (before ≠ [] → b.Unchecked buffer cache missed before s) := by
  obtain ⟨e, hget, hdue⟩ := h.due
  obtain ⟨p, hp, hkernel, hcmdline, hexecutable⟩ := stamped_of_opens h.opens
  have hkeyed : (b.upTo buffer cache missed before).2.Keyed := by
    rw [upTo, cache_addSamples]
    exact hc.keyed.resolveAll _
  have hlater : before ≠ [] → b.Unchecked buffer cache missed before s := by
    intro hne
    have hnot : before.isEmpty = false := List.isEmpty_eq_false_iff.2 hne
    rw [hnot, IdentityCache.resolve_known hget] at hkernel hcmdline hexecutable
    refine ⟨?_, e, p, hget, hp, hkernel, hcmdline, hexecutable⟩
    rw [shownUpTo_concat, hnot, IdentityCache.looks_still hget fun h => by cases h]
    exact List.append_nil _
  refine ⟨⟨fun ⟨m, p', hshown, _⟩ => ?_, fun hfirst => ?_⟩, hlater⟩
  · by_cases hfirst : before = []
    · exact hfirst
    · rw [(hlater hfirst).1] at hshown
      exact absurd hshown.symm (by simp)
  · have hall : before.isEmpty = true := by rw [hfirst]; rfl
    obtain ⟨shown, e', low, houtcome, hlooks, hres, -, -⟩ :=
      IdentityCache.resolve_outcome hkeyed s.pid before.isEmpty
    rw [hres] at hcmdline hexecutable
    rw [hget] at houtcome
    cases shown with
    | none =>
      cases houtcome with
      | known hnot => exact absurd hdue (hnot hall)
    | some m =>
      obtain ⟨hshown, hshown'⟩ := houtcome.shows
      refine ⟨m, p, ?_, hp, hcmdline.trans hshown, hexecutable.trans hshown'⟩
      rw [shownUpTo_concat, hlooks]
      rfl

end

/-- A template, and a child of it that has loaded its own program by the second look. -/
def forking : MetadataScript where
  items := [(100, [⟨"zygote", "/system/bin/app_process", true⟩]),
    (150, [⟨"zygote", "/system/bin/app_process", true⟩,
      ⟨"com.example.app", "/system/bin/app_process", true⟩])]

/-- A cache that has met the template and its child. -/
def forked : IdentityCache MetadataScript :=
  (((IdentityCache.new forking "zygote" 10).resolve 100 true).2.resolve 150 true).2

theorem reachable_forked : forked.Reachable :=
  ((IdentityCache.Reachable.new forking "zygote" 10).resolve 100 true).resolve 150 true

/-- A sample of the template, then one of its child. -/
def templateThenChild : Buffer :=
  (Buffer.new.reset 0).pushAll ([100, 150].map fun pid => { Sample.zero with pid := pid })

/-- The child opens a packet, and as a template above the lowest one it is due. -/
theorem opensDue_child : PacketBuilder.OpensDue {} templateThenChild forked 0
    [{ Sample.zero with pid := 100 }] { Sample.zero with pid := 150 } where
  within := by decide
  opens := by decide
  due := ⟨_, rfl, .inr ⟨by decide, .inl ⟨100, by decide, by decide⟩⟩⟩

theorem rechecked_iff_first_child : forked.Reachable ∧
    PacketBuilder.OpensDue {} templateThenChild forked 0
      [{ Sample.zero with pid := 100 }] { Sample.zero with pid := 150 } ∧
    PacketBuilder.Unchecked {} templateThenChild forked 0
      [{ Sample.zero with pid := 100 }] { Sample.zero with pid := 150 } :=
  ⟨reachable_forked, opensDue_child,
    (rechecked_iff_first reachable_forked opensDue_child).2 (List.cons_ne_nil _ _)⟩

/-- The child is due when it opens its packet, and a look would show its own program.  Yet it is not
looked at, and the packet bears the name of the template. -/
theorem child_not_rechecked : forked.Reachable ∧
    PacketBuilder.OpensDue {} templateThenChild forked 0
      [{ Sample.zero with pid := 100 }] { Sample.zero with pid := 150 } ∧
    ¬PacketBuilder.Rechecked {} templateThenChild forked 0
      [{ Sample.zero with pid := 100 }] { Sample.zero with pid := 150 } ∧
    (forked.resolve 150 true).1.cmdline = "com.example.app" ∧
    (PacketBuilder.encodeBuffer {} templateThenChild forked 0).1.map (·.cmdline) =
      ["zygote", "zygote"] := by
  refine ⟨reachable_forked, opensDue_child, ?_, by decide, by decide⟩
  rintro ⟨m, p, hshown, -⟩
  have hsame : (PacketBuilder.shownUpTo {} templateThenChild forked 0
      [{ Sample.zero with pid := 100 }, { Sample.zero with pid := 150 }]).length =
      (PacketBuilder.shownUpTo {} templateThenChild forked 0
        [{ Sample.zero with pid := 100 }]).length := by decide
  have hmore := congrArg List.length hshown
  rw [List.length_append, List.length_singleton] at hmore
  exact absurd (hsame.symm.trans hmore) (by simp)

end PacketBuilder

end CounterTrace
