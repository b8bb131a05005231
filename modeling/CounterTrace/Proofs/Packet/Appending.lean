import CounterTrace.Proofs.Packet.Batches

/-!
# Appending sample by sample

A builder can be driven by hand: every sample comes with a core and an identity of the caller's
choice, packets are flushed and batches begun at any time.  The header of a packet is stamped once,
with its first sample, and stays true of every later one.

    a.handle r, handleAll rs a    what one request does, and what requests do one after the other
    p.MadeOf number earlier own   `p` holds the entries `own`, which came after `earlier`
    Batched number es ps          `ps` hold the entries `es`, each its own stretch of them
    Sound a                       the packets so far and the pending one hold what was accepted
                                                                             (sound_handleAll)
-/

namespace CounterTrace

open PacketBuilder

/-! ## Requests -/

/-- A sample with what it is appended under. -/
structure Entry where
  core : UInt32
  sample : Sample
  identity : Identity
  missed : UInt32
  deriving DecidableEq, Repr

/-- What a builder can be asked for. -/
inductive BuilderRequest where
  | append (e : Entry)
  | flush
  | startBatch
  deriving DecidableEq, Repr

/-- Whether a request begins a batch. -/
def BuilderRequest.starts : BuilderRequest → Bool
  | startBatch => true
  | _ => false

/-- A builder, and what has come of its batch so far. -/
structure BatchAccount where
  builder : PacketBuilder := {}
  /-- What was accepted, oldest first. -/
  accepted : List Entry := []
  /-- What was flushed, oldest first. -/
  packets : List Packet := []
  deriving DecidableEq, Repr

/-- The answer of a builder to a further entry. -/
def PacketBuilder.offer (b : PacketBuilder) (e : Entry) : Option PacketBuilder :=
  b.append e.core e.sample e.identity e.missed

namespace BatchAccount

/-- Handles a request.  An entry that the builder refuses leaves no trace. -/
def handle (a : BatchAccount) : BuilderRequest → BatchAccount
  | .append e =>
    match a.builder.offer e with
    | none => a
    | some b => { a with builder := b, accepted := a.accepted ++ [e] }
  | .flush => { a with builder := a.builder.flush.2, packets := a.packets ++ a.builder.flush.1.toList }
  | .startBatch => { builder := a.builder.startBatch }

/-- Handles requests one after the other. -/
def handleAll (requests : List BuilderRequest) (a : BatchAccount) : BatchAccount :=
  requests.foldl handle a

end BatchAccount

/-! ## What packets are made of -/

/-- A packet is made of entries of its batch that came after others: it holds their samples, and what
its header says is true of all of them. -/
structure Packet.MadeOf (number : UInt32) (earlier own : List Entry) (p : Packet) : Prop where
  ne_nil : own ≠ []
  room : own.length ≤ maxQuantity
  samples : p.samples = own.map (·.sample)
  quantity : p.header.quantity.toNat = own.length
  pid : ∀ e ∈ own, e.sample.pid = p.header.pid
  core : ∀ e ∈ own, min e.core.toNat 255 = p.header.core.toNat
  batch : p.header.batch = number
  firstIndex : p.header.firstIndex = UInt32.ofNat earlier.length
  /-- The rest of the header and the identity are those of the first entry. -/
  first : ∀ e ∈ own.head?, p.header.kernel = e.identity.isKernel ∧ p.header.missed = e.missed ∧
    p.cmdline = e.identity.cmdline ∧ p.executable = e.identity.executable
  kernel : p.header.kernel = true → ∀ e ∈ own, e.identity.isKernel = true

/-- Packets that are made of entries, each of a stretch that begins where the one before it ends. -/
inductive Batched (number : UInt32) : List Entry → List Packet → Prop where
  | nil : Batched number [] []
  | concat {earlier own : List Entry} {ps : List Packet} {p : Packet}
    (hps : Batched number earlier ps) (hp : p.MadeOf number earlier own) :
    Batched number (earlier ++ own) (ps ++ [p])

theorem toNat_quantity {n : Nat} (h : n ≤ maxQuantity) : (UInt8.ofNat n).toNat = n := by
  rw [maxQuantity] at h
  exact UInt8.toNat_ofNat_of_lt' (show n < 256 by omega)

namespace Packet.MadeOf

variable {number : UInt32} {earlier own : List Entry} {p : Packet}

/-- The packet that an entry opens is made of this entry. -/
theorem opens {b : PacketBuilder} (hbatch : b.batch = number)
    (hindex : b.index = UInt32.ofNat earlier.length) (e : Entry) :
    (extend (b.opened e.core e.sample e.identity e.missed) e.sample).MadeOf number earlier [e] := by
  refine ⟨by simp, by simp [maxQuantity], rfl, rfl, by simp [extend, opened], ?_, hbatch, hindex,
    by simp [extend, opened], by simp [extend, opened]⟩
  intro e' he'
  rw [List.mem_singleton.1 he']
  exact (toNat_wireCore_eq_min e.core).symm

/-- A packet that may take a further entry is then made of this one, too. -/
theorem grown (hp : p.MadeOf number earlier own) {b : PacketBuilder} (hb : b.pending = some p)
    {e : Entry} (hstay : b.mustFlush e.core e.sample e.identity = false) :
    (extend p e.sample).MadeOf number earlier (own ++ [e]) := by
  simp only [mustFlush, hb, Bool.or_eq_false_iff, decide_eq_false_iff_not, Nat.not_le,
    bne_eq_false_iff_eq] at hstay
  obtain ⟨⟨⟨hroom, hmode⟩, hcore⟩, hpid⟩ := hstay
  have hlength : p.samples.length = own.length := by rw [hp.samples, List.length_map]
  have hgrown : own.length + 1 ≤ maxQuantity := by omega
  -- what holds of all entries so far and of the new one
  have hall : ∀ {P : Entry → Prop}, (∀ e' ∈ own, P e') → P e → ∀ e' ∈ own ++ [e], P e' := by
    intro P hown hnew e' he'
    rcases List.mem_append.1 he' with he' | he'
    · exact hown e' he'
    · exact (List.mem_singleton.1 he') ▸ hnew
  refine ⟨by simp, ?_, ?_, ?_, hall hp.pid hpid.symm, hall hp.core ?_, hp.batch, hp.firstIndex,
    ?_, ?_⟩
  · rw [List.length_append]
    exact hgrown
  · rw [List.map_append, ← hp.samples]
    rfl
  · rw [List.length_append, extend, hlength]
    exact toNat_quantity hgrown
  · rw [← toNat_wireCore_eq_min, ← hcore]
    rfl
  · intro e' he'
    obtain ⟨e₀, rest, rfl⟩ := List.exists_cons_of_ne_nil hp.ne_nil
    exact hp.first e' he'
  · intro hkernel
    refine hall (hp.kernel hkernel) ?_
    have hk : p.header.kernel = true := hkernel
    simpa [hk] using hmode

end Packet.MadeOf

namespace Batched

variable {number : UInt32} {es : List Entry} {ps : List Packet}

/-- The packets hold the samples of the entries in their order. -/
theorem samples (h : Batched number es ps) : ps.flatMap (·.samples) = es.map (·.sample) := by
  induction h with
  | nil => rfl
  | concat _ hp ih => simp [ih, hp.samples]

/-- Every packet is made of a stretch of the entries, behind those of the packets before it. -/
theorem madeOf (h : Batched number es ps) {before after : List Packet} {p : Packet}
    (hps : ps = before ++ p :: after) :
    ∃ earlier own later, es = earlier ++ own ++ later ∧
      earlier.map (·.sample) = before.flatMap (·.samples) ∧ p.MadeOf number earlier own := by
  induction h generalizing after with
  | nil => simp at hps
  | @concat earlier own qs q hqs hq ih =>
    rcases List.eq_nil_or_concat after with rfl | ⟨after, r, rfl⟩
    · obtain ⟨rfl, hlast⟩ := List.append_inj' hps rfl
      obtain rfl : q = p := by simpa using hlast
      exact ⟨earlier, own, [], by simp, hqs.samples.symm, hq⟩
    · rw [List.concat_eq_append, ← List.cons_append, ← List.append_assoc] at hps
      obtain ⟨hfront, -⟩ := List.append_inj' hps rfl
      obtain ⟨e₁, e₂, e₃, hes, hbefore, hmade⟩ := ih hfront
      exact ⟨e₁, e₂, e₃ ++ own, by simp [hes], hbefore, hmade⟩

end Batched

/-! ## Invariant -/

namespace BatchAccount

/-- The packets of the batch hold the entries that were accepted, up to those that the pending packet
is made of. -/
structure Sound (a : BatchAccount) : Prop where
  index : a.builder.index = UInt32.ofNat a.accepted.length
  batched : ∃ earlier own, a.accepted = earlier ++ own ∧
    Batched a.builder.batch earlier a.packets ∧
    (a.builder.pending = none → own = []) ∧
    ∀ p, a.builder.pending = some p → p.MadeOf a.builder.batch earlier own

theorem sound_empty (b : PacketBuilder) (hpending : b.pending = none) (hindex : b.index = 0) :
    Sound { builder := b } where
  index := hindex
  batched := ⟨[], [], rfl, .nil, fun _ => rfl, fun p hp => by rw [hpending] at hp; cases hp⟩

/-- A builder refuses an entry if and only if it must be flushed first. -/
theorem offer_eq_none_iff {b : PacketBuilder} {e : Entry} :
    b.offer e = none ↔ b.mustFlush e.core e.sample e.identity = true := by
  unfold PacketBuilder.offer append
  split <;> simp_all

theorem offer_of_stay {b : PacketBuilder} {e : Entry}
    (h : b.mustFlush e.core e.sample e.identity = false) :
    b.offer e = some (b.push e.core e.sample e.identity e.missed) := by
  simp [PacketBuilder.offer, append, h]

namespace Sound

variable {a : BatchAccount}

theorem append (ha : a.Sound) (e : Entry) : (a.handle (.append e)).Sound := by
  cases hstay : a.builder.mustFlush e.core e.sample e.identity with
  | true =>
    have hnone : a.builder.offer e = none := offer_eq_none_iff.2 hstay
    simp only [handle, hnone]
    exact ha
  | false =>
    obtain ⟨earlier, own, haccepted, hbatched, hnone, hsome⟩ := ha.batched
    simp only [handle, offer_of_stay hstay]
    refine ⟨?_, earlier, own ++ [e], by rw [haccepted, List.append_assoc], hbatched, ?_, ?_⟩
    · show a.builder.index + 1 = UInt32.ofNat (a.accepted ++ [e]).length
      rw [ha.index, List.length_append]
      simp [UInt32.ofNat_add]
    · intro hpending
      simp [push] at hpending
    · rintro p ⟨⟩
      cases hp : a.builder.pending with
      | none =>
        rw [hnone hp, List.append_nil] at haccepted
        have hindex := ha.index
        rw [haccepted] at hindex
        rw [hnone hp]
        exact .opens rfl hindex e
      | some q => exact (hsome q hp).grown hp hstay

theorem flush (ha : a.Sound) : (a.handle .flush).Sound := by
  obtain ⟨earlier, own, haccepted, hbatched, hnone, hsome⟩ := ha.batched
  refine ⟨ha.index, a.accepted, [], (List.append_nil _).symm, ?_, fun _ => rfl, ?_⟩
  · show Batched a.builder.batch a.accepted (a.packets ++ a.builder.pending.toList)
    cases hp : a.builder.pending with
    | none =>
      rw [haccepted, hnone hp]
      simpa using hbatched
    | some p =>
      rw [haccepted]
      exact .concat hbatched (hsome p hp)
  · intro p hp
    cases hp

theorem startBatch (a : BatchAccount) : (a.handle .startBatch).Sound := sound_empty _ rfl rfl

theorem handle (ha : a.Sound) (r : BuilderRequest) : (a.handle r).Sound := by
  cases r with
  | append e => exact ha.append e
  | flush => exact ha.flush
  | startBatch => exact .startBatch a

/-- Whatever is asked, and in whatever order. -/
theorem handleAll (ha : a.Sound) (requests : List BuilderRequest) :
    (handleAll requests a).Sound := by
  induction requests generalizing a with
  | nil => exact ha
  | cons r requests ih => exact ih (ha.handle r)

/-- The packets so far and the pending one hold the samples that were accepted, in their order. -/
theorem samples (ha : a.Sound) :
    a.packets.flatMap (·.samples) ++ a.builder.held = a.accepted.map (·.sample) := by
  obtain ⟨earlier, own, haccepted, hbatched, hnone, hsome⟩ := ha.batched
  rw [haccepted, List.map_append, hbatched.samples]
  cases hp : a.builder.pending with
  | none => simp [held, hp, hnone hp]
  | some p => simp [held, hp, (hsome p hp).samples]

end Sound

theorem batch_handle (a : BatchAccount) (r : BuilderRequest) :
    (a.handle r).builder.batch = a.builder.batch + if r.starts then 1 else 0 := by
  cases r with
  | append e =>
    cases hstay : a.builder.mustFlush e.core e.sample e.identity with
    | true => simp [BatchAccount.handle, offer_eq_none_iff.2 hstay, BuilderRequest.starts]
    | false => simp [BatchAccount.handle, offer_of_stay hstay, BuilderRequest.starts, push]
  | flush => simp [BatchAccount.handle, PacketBuilder.flush, BuilderRequest.starts]
  | startBatch => simp [BatchAccount.handle, PacketBuilder.startBatch, BuilderRequest.starts]

/-- A batch is numbered by the batches begun so far. -/
theorem batch_handleAll (requests : List BuilderRequest) (a : BatchAccount) :
    (handleAll requests a).builder.batch =
      a.builder.batch + UInt32.ofNat (requests.countP (·.starts)) := by
  induction requests generalizing a with
  | nil => simp [handleAll]
  | cons r requests ih =>
    show (handleAll requests (a.handle r)).builder.batch = _
    rw [ih, batch_handle, List.countP_cons, UInt32.add_assoc, Nat.add_comm, UInt32.ofNat_add]
    cases r.starts <;> rfl

/-- **Headers stay true.**  Whatever is asked of a builder, with any cores and identities: it refuses
a sample exactly if it must be flushed first, and is then left as it was.  The packets of a batch
and the pending one hold the samples that were accepted, in their order, and every packet is made of
its own stretch of them, which begins where its first index says. -/
theorem handleAll_keeps_headers (requests : List BuilderRequest) {a : BatchAccount}
    (ha : a = handleAll requests {}) (hsize : a.accepted.length < UInt32.size) :
    (∀ e, (a.builder.append e.core e.sample e.identity e.missed = none ↔
        a.builder.mustFlush e.core e.sample e.identity = true) ∧
      (a.builder.mustFlush e.core e.sample e.identity = true → a.handle (.append e) = a) ∧
      (a.builder.mustFlush e.core e.sample e.identity = false →
        (a.handle (.append e)).accepted = a.accepted ++ [e])) ∧
    a.packets.flatMap (·.samples) ++ a.builder.held = a.accepted.map (·.sample) ∧
    a.builder.batch = UInt32.ofNat (requests.countP (·.starts)) ∧
    ∀ before p after, a.packets = before ++ p :: after →
      ∃ earlier own later, a.accepted = earlier ++ own ++ later ∧
        earlier.map (·.sample) = before.flatMap (·.samples) ∧
        p.header.firstIndex.toNat = earlier.length ∧ p.MadeOf a.builder.batch earlier own := by
  have hsound : a.Sound := ha ▸ (sound_empty {} rfl rfl).handleAll requests
  refine ⟨fun e => ⟨offer_eq_none_iff, ?_, ?_⟩, hsound.samples, ?_, ?_⟩
  · intro hflush
    simp only [handle, offer_eq_none_iff.2 hflush]
  · intro hstay
    simp only [handle, offer_of_stay hstay]
  · rw [ha, batch_handleAll]
    exact UInt32.zero_add _
  · intro before p after hpackets
    obtain ⟨earlier, own, haccepted, hbatched, -, -⟩ := hsound.batched
    obtain ⟨e₁, e₂, e₃, hes, hbefore, hmade⟩ := hbatched.madeOf hpackets
    refine ⟨e₁, e₂, e₃ ++ own, by simp [haccepted, hes], hbefore, ?_, hmade⟩
    rw [hmade.firstIndex]
    refine UInt32.toNat_ofNat_of_lt' (Nat.lt_of_le_of_lt ?_ hsize)
    rw [haccepted, hes]
    simp only [List.length_append]
    omega

/-- A kernel packet on a core that takes no byte, which refuses a user process and takes it after a
flush, together with a core that travels as the same byte. -/
def refusedOnce : List BuilderRequest :=
  let kernel := Identity.blank 7 .kernel 0
  let user := { Identity.blank 7 .user 0 with cmdline := "a", executable := "/a" }
  [.startBatch, .append ⟨300, .zero, kernel, 1⟩, .append ⟨300, .zero, user, 2⟩, .flush,
    .append ⟨300, .zero, user, 3⟩, .append ⟨255, .zero, kernel, 4⟩, .flush]

theorem handleAll_keeps_headers_refused_once :
    (handleAll refusedOnce {}).accepted.length < UInt32.size ∧
      ∃ p q, (handleAll refusedOnce {}).packets = [p, q] ∧
        ∃ earlier own later, (handleAll refusedOnce {}).accepted = earlier ++ own ++ later ∧
          q.MadeOf 1 earlier own ∧ earlier.length = 1 ∧ own.length = 2 := by
  have hsize : (handleAll refusedOnce {}).accepted.length < UInt32.size := by decide
  obtain ⟨-, -, -, hpackets⟩ := handleAll_keeps_headers refusedOnce rfl hsize
  refine ⟨hsize, _, _, rfl, ?_⟩
  obtain ⟨earlier, own, later, haccepted, -, hindex, hmade⟩ := hpackets [_] _ [] rfl
  exact ⟨earlier, own, later, haccepted, hmade, hindex.symm, hmade.quantity.symm⟩

end BatchAccount

end CounterTrace
