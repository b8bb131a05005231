import CounterTrace.Proofs.Trace.Splitting

/-!
# Routing packets

What becomes of packets, from a new splitter to the end of the session: each trace is opened once
and first, is fed by the packets of its own core alone, is closed once and has one row in the index.

    (routing n ps).filter (about key)     the opening, then `traceOf key` of the core's packets
    s.entries                             ascending by core and process         (entries_ascending)
    packets of cores out of range         change nothing but their number      (processAll_dropping)
-/

namespace CounterTrace

open TraceWriter Splitter

/-! ## The order of the index -/

namespace StreamKey

/-- A trace comes before another one in the index. -/
def Before (a b : StreamKey) : Prop := a.core < b.core ∨ a.core = b.core ∧ a.pid < b.pid

theorem le_iff {a b : StreamKey} : a.le b = true ↔ a.Before b ∨ a = b := by
  obtain ⟨c, p⟩ := a
  obtain ⟨d, q⟩ := b
  simp only [le, Before, Bool.or_eq_true, Bool.and_eq_true, decide_eq_true_eq, beq_iff_eq, mk.injEq,
    UInt8.lt_iff_toNat_lt, UInt32.lt_iff_toNat_lt, UInt32.le_iff_toNat_le, ← UInt8.toNat_inj,
    ← UInt32.toNat_inj]
  omega

theorem le_trans {a b c : StreamKey} (hab : a.le b = true) (hbc : b.le c = true) :
    a.le c = true := by
  simp only [le, Bool.or_eq_true, Bool.and_eq_true, decide_eq_true_eq, beq_iff_eq,
    UInt8.lt_iff_toNat_lt, UInt32.le_iff_toNat_le, ← UInt8.toNat_inj] at hab hbc ⊢
  omega

theorem le_total (a b : StreamKey) : (a.le b || b.le a) = true := by
  simp only [le, Bool.or_eq_true, Bool.and_eq_true, decide_eq_true_eq, beq_iff_eq,
    UInt8.lt_iff_toNat_lt, UInt32.le_iff_toNat_le, ← UInt8.toNat_inj]
  omega

theorem Before.asymm {a b : StreamKey} (hab : a.Before b) : ¬ b.Before a := by
  simp only [Before, UInt8.lt_iff_toNat_lt, UInt32.lt_iff_toNat_lt, ← UInt8.toNat_inj] at hab ⊢
  omega

end StreamKey

def IndexEntry.unplaced (e : IndexEntry) : IndexEntry := { e with location := "" }

theorem IndexEntry.eq_of_unplaced_eq {e e' : IndexEntry} (h : e.unplaced = e'.unplaced)
    (hlocation : e.location = e'.location) : e = e' := by
  cases e
  cases e'
  simp only [unplaced, mk.injEq] at h ⊢
  exact ⟨h.1, h.2.1, h.2.2.1, hlocation, h.2.2.2.2⟩

namespace Splitter

variable {w : Type} [TraceWriter w] {j : w} {calls : List WriterCall} {ps : List Packet}
  {s : Splitter w}

theorem get?_index (hs : Filed j calls ps s) {key : StreamKey} {e : IndexEntry}
    (he : s.index.get? key = some e) : e.key = key ∧ key ∈ s.streams ∧ e.Tells j calls ps := by
  have hkey : key ∈ s.streams := by
    rw [← hs.keys, Table.mem_keys_iff, he]
    rfl
  obtain ⟨e', he', hkey', htells⟩ := hs.index key hkey
  rw [he, Option.some.injEq] at he'
  subst he'
  exact ⟨hkey', hkey, htells⟩

theorem nodup_keys_index (hs : Filed j calls ps s) : s.index.keys.Nodup := hs.keys ▸ hs.nodup

/-- The rows of the index are what it has for the open traces. -/
theorem mem_entries_iff (hs : Filed j calls ps s) {e : IndexEntry} :
    e ∈ s.entries ↔ s.index.get? e.key = some e := by
  rw [entries, List.mem_mergeSort, List.mem_map]
  constructor
  · rintro ⟨⟨key, e'⟩, hmem, rfl⟩
    have hget := (Table.mem_entries_iff (nodup_keys_index hs)).1 hmem
    show s.index.get? e'.key = some e'
    rw [(get?_index hs hget).1, hget]
  · intro hget
    exact ⟨(e.key, e), (Table.mem_entries_iff (nodup_keys_index hs)).2 hget, rfl⟩

theorem tells_of_mem_entries (hs : Filed j calls ps s) {e : IndexEntry} (he : e ∈ s.entries) :
    e.Tells j calls ps :=
  (get?_index hs ((mem_entries_iff hs).1 he)).2.2

theorem mem_map_key_entries_iff (hs : Filed j calls ps s) (key : StreamKey) :
    key ∈ s.entries.map (·.key) ↔ key ∈ s.streams := by
  rw [List.mem_map]
  constructor
  · rintro ⟨e, he, rfl⟩
    exact (get?_index hs ((mem_entries_iff hs).1 he)).2.1
  · intro hkey
    obtain ⟨e, he, rfl, -⟩ := hs.index key hkey
    exact ⟨e, (mem_entries_iff hs).2 he, rfl⟩

/-- The rows of the index stand in the order of the traces, one for each. -/
theorem entries_ascending (hs : Filed j calls ps s) :
    s.entries.Pairwise (·.key.Before ·.key) := by
  have hsorted : s.entries.Pairwise (·.key.le ·.key) := by
    refine List.pairwise_mergeSort (fun a b c hab hbc => ?_) (fun a b => ?_) _
    · exact StreamKey.le_trans hab hbc
    · exact StreamKey.le_total a.key b.key
  have hkeys : (s.entries.map (·.key)).Nodup := by
    have hsame : s.index.entries.map (·.2.key) = s.index.keys := by
      refine List.map_congr_left fun row hrow => ?_
      exact (get?_index hs ((Table.mem_entries_iff (nodup_keys_index hs)).1 hrow)).1
    have hperm := (List.mergeSort_perm (s.index.entries.map (·.2)) (·.key.le ·.key)).map (·.key)
    rw [List.map_map] at hperm
    exact (hperm.nodup_iff).2 (hsame.symm ▸ nodup_keys_index hs)
  refine (hsorted.and (List.pairwise_map.1 hkeys)).imp ?_
  rintro a b ⟨hle, hne⟩
  exact (StreamKey.le_iff.1 hle).resolve_right hne

/-! ## The rows of one core -/

/-- A writer chooses the place of a trace by its key and its identity, whatever it did before. -/
def Places (j : w) (place : StreamKey → String → String → String) : Prop :=
  ∀ calls key c e, (openTrace (after j calls) key c e).1 = .ok (place key c e)

/-- The traces in the rows of a core, in the order of the index. -/
theorem map_key_filter_entries (hs : Filed j calls ps s) (core : UInt8) :
    ((s.entries.filter (·.key.core = core)).map (·.key)).Pairwise StreamKey.Before ∧
      ∀ key, key ∈ (s.entries.filter (·.key.core = core)).map (·.key) ↔
        key ∈ (onCore core ps).map keyOf := by
  refine ⟨List.pairwise_map.2 ((entries_ascending hs).filter _), fun key => ?_⟩
  have hkey := mem_map_key_entries_iff hs key
  rw [hs.mem_streams] at hkey
  simp only [List.mem_map, List.mem_filter, onCore, decide_eq_true_eq] at hkey ⊢
  constructor
  · rintro ⟨e, ⟨he, hcore⟩, rfl⟩
    obtain ⟨p, hp, hpkey⟩ := hkey.1 ⟨e, he, rfl⟩
    exact ⟨p, ⟨hp, (keyOf_eq_iff.1 hpkey).1.trans hcore⟩, hpkey⟩
  · rintro ⟨p, ⟨hp, hcore⟩, hpkey⟩
    obtain ⟨e, he, hek⟩ := hkey.2 ⟨p, hp, hpkey⟩
    exact ⟨e, ⟨he, by rw [hek, ← (keyOf_eq_iff.1 hpkey).1, hcore]⟩, hek⟩

/-- What can be said of the rows of a core by their traces is the same for two splitters that filed
the same packets of that core. -/
theorem map_filter_entries_eq {calls' : List WriterCall} {qs : List Packet} {s' : Splitter w}
    (hs : Filed j calls ps s) (hs' : Filed j calls' qs s') {core : UInt8}
    (h : onCore core ps = onCore core qs) {α : Type} {f : IndexEntry → α}
    (hf : ∀ e ∈ s.entries, ∀ e' ∈ s'.entries, e.key = e'.key → e.key.core = core → f e = f e') :
    (s.entries.filter (·.key.core = core)).map f =
      (s'.entries.filter (·.key.core = core)).map f := by
  obtain ⟨hasc, hmem⟩ := map_key_filter_entries hs core
  obtain ⟨hasc', hmem'⟩ := map_key_filter_entries hs' core
  have hnodup : ∀ {keys : List StreamKey}, keys.Pairwise StreamKey.Before → keys.Nodup :=
    fun hk => hk.imp fun hab heq => (heq ▸ hab).asymm (heq ▸ hab)
  have hkeys : (s.entries.filter (·.key.core = core)).map (·.key) =
      (s'.entries.filter (·.key.core = core)).map (·.key) := by
    refine List.Perm.eq_of_pairwise (fun a b _ _ hab hba => absurd hba hab.asymm) hasc hasc' ?_
    refine (List.perm_ext_iff_of_nodup (hnodup hasc) (hnodup hasc')).2 fun key => ?_
    rw [hmem, hmem', h]
  have hlength := congrArg List.length hkeys
  rw [List.length_map, List.length_map] at hlength
  refine List.ext_getElem (by rw [List.length_map, List.length_map, hlength]) fun i hi hi' => ?_
  rw [List.length_map] at hi hi'
  obtain ⟨he, hcore⟩ := List.mem_filter.1 (List.getElem_mem hi)
  obtain ⟨he', -⟩ := List.mem_filter.1 (List.getElem_mem hi')
  have hkey := List.getElem_of_eq hkeys (by rwa [List.length_map] : i < _)
  rw [List.getElem_map, List.getElem_map] at hkey ⊢
  exact hf _ he _ he' hkey (of_decide_eq_true hcore)

/-- Rows of a trace differ in their location at most. -/
theorem unplaced_eq {calls' : List WriterCall} {qs : List Packet} {e e' : IndexEntry}
    (he : e.Tells j calls ps) (he' : e'.Tells j calls' qs) (hkey : e.key = e'.key)
    (h : onCore e.key.core ps = onCore e.key.core qs) : e.unplaced = e'.unplaced := by
  have hsame : inTrace e.key ps = inTrace e'.key qs := by
    rw [← inTrace_onCore, h, inTrace_onCore, hkey]
  obtain ⟨last, hlast, hc, hx⟩ := he.identity
  obtain ⟨last', hlast', hc', hx'⟩ := he'.identity
  rw [hsame, hlast', Option.some.injEq] at hlast
  subst hlast
  have hsamples : e.samples = e'.samples := by rw [he.samples, hsame, he'.samples]
  simp only [IndexEntry.unplaced, hkey, hc, hc', hx, hx', hsamples]

theorem openTrace_not_mem_traceOf (key : StreamKey) (c e : String) (ps : List Packet) :
    .openTrace key c e ∉ traceOf key ps := by
  intro h
  rcases eq_of_mem_traceOf h with ⟨ss, heq⟩ | heq
  · cases heq
  · cases heq

/-- A writer that chooses places by trace and identity has put a trace where the identity of its
first packet leads. -/
theorem location_eq_place {place : StreamKey → String → String → String} (hplace : Places j place)
    {key : StreamKey} {location : String} (h : GivenLocation j (filings [] ps) key location) :
    ∃ first, (inTrace key ps).head? = some first ∧
      location = place key first.cmdline first.executable := by
  obtain ⟨before, rest, c, e, hcalls, hopen⟩ := h
  rw [hplace, Except.ok.injEq] at hopen
  have hmem : .openTrace key c e ∈ (filings [] ps).filter (about key) := by
    rw [hcalls]
    simp [about, WriterCall.key?]
  rw [filings_about, traceCalls] at hmem
  cases hfirst : (inTrace key ps).head? with
  | none =>
    rw [hfirst] at hmem
    cases hmem
  | some first =>
    rw [hfirst] at hmem
    rcases List.mem_cons.1 hmem with heq | htail
    · rw [WriterCall.openTrace.injEq] at heq
      obtain ⟨-, rfl, rfl⟩ := heq
      exact ⟨first, rfl, hopen.symm⟩
    · exact absurd htail (openTrace_not_mem_traceOf key c e _)

/-- With such a writer, rows of a trace do not differ at all. -/
theorem placed_eq {place : StreamKey → String → String → String} (hplace : Places j place)
    {qs : List Packet} {e e' : IndexEntry} (he : e.Tells j (filings [] ps) ps)
    (he' : e'.Tells j (filings [] qs) qs) (hkey : e.key = e'.key)
    (h : onCore e.key.core ps = onCore e.key.core qs) : e = e' := by
  refine IndexEntry.eq_of_unplaced_eq (unplaced_eq he he' hkey h) ?_
  obtain ⟨first, hfirst, hlocation⟩ := location_eq_place hplace he.location
  obtain ⟨first', hfirst', hlocation'⟩ := location_eq_place hplace he'.location
  rw [← inTrace_onCore, h, inTrace_onCore, hkey, hfirst', Option.some.injEq] at hfirst
  rw [hlocation, hlocation', hkey, hfirst]

/-! ## Cores out of range -/

def withDropped (s : Splitter w) (n : Nat) : Splitter w :=
  { s with stats := { s.stats with dropped := n } }

theorem leave_withDropped (s : Splitter w) (n : Nat) (key : StreamKey) :
    (s.withDropped n).leave key = ((s.leave key).1, (s.leave key).2.withDropped n) := by
  rcases hwrite : writeBoundary s.writer key with ⟨r, writer⟩
  by_cases hk : key ∈ s.streams
  · cases r <;> simp only [leave, withDropped, hk, if_true, hwrite]
  · simp only [leave, withDropped, hk, if_false]

theorem enter_withDropped (s : Splitter w) (n : Nat) (key : StreamKey) :
    (s.withDropped n).enter key = ((s.enter key).1, (s.enter key).2.withDropped n) := by
  have hcurrent : (s.withDropped n).current = s.current := rfl
  simp only [enter, hcurrent]
  cases s.current.get? key.core with
  | none => rfl
  | some pid =>
    by_cases hpid : pid = key.pid
    · simp only [hpid, if_true]
    · simp only [hpid, if_false]
      exact leave_withDropped { s with current := s.current.insert key.core key.pid } n _

theorem ensureOpen_withDropped (s : Splitter w) (n : Nat) (p : Packet) :
    (s.withDropped n).ensureOpen p = ((s.ensureOpen p).1, (s.ensureOpen p).2.withDropped n) := by
  rcases hopen : openTrace s.writer (keyOf p) p.cmdline p.executable with ⟨r, writer⟩
  by_cases hk : keyOf p ∈ s.streams
  · simp only [ensureOpen, withDropped, hk, if_true]
  · cases r <;> simp only [ensureOpen, withDropped, opened, hk, if_false, hopen]

theorem store_withDropped (s : Splitter w) (n : Nat) (p : Packet) :
    (s.withDropped n).store p = ((s.store p).1, (s.store p).2.withDropped n) := by
  rcases hwrite : writeSamples s.writer (keyOf p) p.samples with ⟨r, writer⟩
  cases r <;> simp only [store, withDropped, accounted, hwrite]

omit [TraceWriter w] in
/-- Steps that do not look at the number of dropped packets do not look at it one after the other
either. -/
theorem andThen_withDropped {r r' : Except Failure Unit × Splitter w} {n : Nat}
    {next : Splitter w → Except Failure Unit × Splitter w} (hr : r' = (r.1, r.2.withDropped n))
    (hnext : ∀ s, next (s.withDropped n) = ((next s).1, (next s).2.withDropped n)) :
    andThen r' next = ((andThen r next).1, (andThen r next).2.withDropped n) := by
  obtain ⟨r, s⟩ := r
  subst hr
  cases r with
  | ok => exact hnext s
  | error f => rfl

/-- The number of dropped packets has no bearing on what is done with a packet in range. -/
theorem processPacket_withDropped (s : Splitter w) {p : Packet}
    (hp : p.header.core.toNat < s.maxCores) (n : Nat) :
    (s.withDropped n).processPacket p =
      ((s.processPacket p).1, (s.processPacket p).2.withDropped n) := by
  have hp' : p.header.core.toNat < (s.withDropped n).maxCores := hp
  rw [processPacket, if_pos hp', processPacket, if_pos hp]
  exact andThen_withDropped
    (andThen_withDropped (enter_withDropped s n _) (ensureOpen_withDropped · n p))
    (store_withDropped · n p)

/-- Packets of cores out of range may be left out; only their number is missing then. -/
theorem processAll_dropping (hj : NeverFails j) (hs : Filed j calls ps s) (qs : List Packet) :
    ∃ s', processAll ((inRange s.maxCores qs).map .packet) s =
        (.ok (), s', (inRange s.maxCores qs).length) ∧
      ∀ n, (processAll (qs.map .packet) (s.withDropped n)).2.1 =
        s'.withDropped (n + qs.countP (s.maxCores ≤ ·.header.core.toNat)) := by
  induction qs generalizing calls ps s with
  | nil => exact ⟨s, rfl, fun n => rfl⟩
  | cons p qs ih =>
    by_cases hp : p.header.core.toNat < s.maxCores
    · obtain ⟨s₁, hprocess, hs₁, hmax₁, -⟩ := processPacket_filed hj hs hp
      obtain ⟨s', hrun, hdrop⟩ := ih hs₁
      rw [hmax₁] at hrun hdrop
      have hcons : inRange s.maxCores (p :: qs) = p :: inRange s.maxCores qs := by
        rw [inRange, List.filter_cons_of_pos (by simpa using hp), inRange]
      refine ⟨s', ?_, fun n => ?_⟩
      · rw [hcons, List.map_cons]
        simp only [processAll, process, hprocess, hrun]
        simp [Frame.packet?, Nat.add_comm]
      · have hprocess' := processPacket_withDropped s hp n
        rw [hprocess] at hprocess'
        simp only [List.map_cons, processAll, process, hprocess', hdrop]
        rw [List.countP_cons_of_neg (by simpa using hp)]
    · have hcons : inRange s.maxCores (p :: qs) = inRange s.maxCores qs := by
        rw [inRange, List.filter_cons_of_neg (by simpa using hp), inRange]
      obtain ⟨s', hrun, hdrop⟩ := ih hs
      refine ⟨s', by rw [hcons, hrun], fun n => ?_⟩
      have hprocess : (s.withDropped n).processPacket p = (.ok (), s.withDropped (n + 1)) := by
        have hp' : ¬ p.header.core.toNat < (s.withDropped n).maxCores := hp
        rw [processPacket, if_neg hp']
        rfl
      simp only [List.map_cons, processAll, process, hprocess, hdrop]
      rw [List.countP_cons_of_pos (by simpa using hp), Nat.add_assoc, Nat.add_comm 1]

/-! ## Whole sessions -/

/-- The calls for the packets of a session. -/
def routing (maxCores : Nat) (ps : List Packet) : List WriterCall :=
  filings [] (inRange maxCores ps)

theorem onCore_inRange (maxCores : Nat) (core : UInt8) (ps : List Packet) :
    onCore core (inRange maxCores ps) = inRange maxCores (onCore core ps) := by
  rw [onCore, inRange, List.filter_filter, onCore, inRange, List.filter_filter]
  exact List.filter_congr fun p _ => Bool.and_comm _ _

theorem onCore_inRange_of_lt {maxCores : Nat} {core : UInt8} (h : core.toNat < maxCores)
    (ps : List Packet) : onCore core (inRange maxCores ps) = onCore core ps := by
  rw [onCore_inRange]
  refine List.filter_eq_self.2 fun p hp => ?_
  have hcore : p.header.core = core := by simpa using (List.mem_filter.1 hp).2
  simpa [hcore] using h

theorem inTrace_inRange_of_lt {maxCores : Nat} {key : StreamKey} (h : key.core.toNat < maxCores)
    (ps : List Packet) : inTrace key (inRange maxCores ps) = inTrace key ps := by
  rw [← inTrace_onCore, onCore_inRange_of_lt h, inTrace_onCore]

/-- What becomes of packets that a new splitter handles, from the first to the end of the session.
-/
structure Routed (j : w) (maxCores : Nat) (ps : List Packet) (s : Splitter w) : Prop where
  writer : s.writer = after j (routing maxCores ps)
  /-- A trace in range is opened once, with the identity of its first packet, before anything else;
  then it receives the samples of its packets, with a boundary wherever its core goes over to
  another process. -/
  trace : ∀ key : StreamKey, key.core.toNat < maxCores →
    (routing maxCores ps).filter (about key) = traceCalls key ps
  /-- Every call is about a trace in range. -/
  only : ∀ call ∈ routing maxCores ps,
    ∃ p ∈ ps, p.header.core.toNat < maxCores ∧ call.key? = some (keyOf p)
  /-- At the end the traces are closed and the index is written. -/
  closing : s.finish =
    (.ok (), after j (routing maxCores ps ++ s.streams.map .close ++ [.index s.entries]))
  nodup : s.streams.Nodup
  mem_streams : ∀ key, key ∈ s.streams ↔
    ∃ p ∈ ps, p.header.core.toNat < maxCores ∧ keyOf p = key
  ascending : s.entries.Pairwise (·.key.Before ·.key)
  mem_entries : ∀ key, key ∈ s.entries.map (·.key) ↔ key ∈ s.streams
  /-- A row has the identity of the trace's last packet, its location and all its samples. -/
  entries : ∀ e ∈ s.entries, e.Tells j (routing maxCores ps) ps
  stats : s.stats =
    { packets := (inRange maxCores ps).length
      samples := sampleCount (inRange maxCores ps)
      boundaries := (routing maxCores ps).countP (·.isBoundary)
      dropped := ps.countP (maxCores ≤ ·.header.core.toNat) }
  /-- Without the packets out of range nothing but their number would be missing. -/
  dropping : processAll ((inRange maxCores ps).map .packet) (new j maxCores) =
    (.ok (), s.withDropped 0, (inRange maxCores ps).length)

theorem processAll_new (hj : NeverFails j) (maxCores : Nat) (ps : List Packet) :
    ∃ s, processAll (ps.map .packet) (new j maxCores) = (.ok (), s, ps.length) ∧
      Filed j (routing maxCores ps) (inRange maxCores ps) s ∧
      s.stats.dropped = ps.countP (maxCores ≤ ·.header.core.toNat) := by
  obtain ⟨s, hrun, hs, -, hdropped⟩ := processAll_filed hj (filed_new j maxCores) (ps.map .packet)
  simp only [packetsOf_packets, callsFor_packets, List.nil_append] at hrun hs hdropped
  rw [show (new j maxCores).stats.dropped = 0 from rfl, Nat.zero_add] at hdropped
  exact ⟨s, hrun, hs, hdropped⟩

theorem tells_inRange {maxCores : Nat} (hs : Filed j calls (inRange maxCores ps) s)
    {e : IndexEntry} (he : e ∈ s.entries) : e.Tells j calls ps := by
  have hrange : e.key.core.toNat < maxCores := by
    have hkey := (mem_map_key_entries_iff hs e.key).1 (List.mem_map_of_mem he)
    rw [hs.mem_streams, List.mem_map] at hkey
    obtain ⟨p, hp, hpkey⟩ := hkey
    rw [← (keyOf_eq_iff.1 hpkey).1]
    exact of_decide_eq_true (List.mem_filter.1 hp).2
  obtain ⟨hidentity, hlocation, hsamples⟩ := tells_of_mem_entries hs he
  rw [inTrace_inRange_of_lt hrange] at hidentity hsamples
  exact ⟨hidentity, hlocation, hsamples⟩

theorem processAll_new_inRange (hj : NeverFails j) {maxCores : Nat}
    (hrun : processAll (ps.map .packet) (new j maxCores) = (.ok (), s, ps.length)) :
    processAll ((inRange maxCores ps).map .packet) (new j maxCores) =
      (.ok (), s.withDropped 0, (inRange maxCores ps).length) := by
  obtain ⟨s₀, hrun₀, hdropping⟩ := processAll_dropping hj (filed_new j maxCores) ps
  obtain ⟨s₁, hrun₁, -, hdropped₁⟩ := processAll_new hj maxCores (inRange maxCores ps)
  rw [show (new j maxCores).maxCores = maxCores from rfl] at hrun₀ hdropping
  have hzero : s₀.stats.dropped = 0 := by
    have hnone : (inRange maxCores ps).countP (maxCores ≤ ·.header.core.toNat) = 0 := by
      simp [List.countP_eq_zero, inRange]
    rw [hrun₀] at hrun₁
    cases hrun₁
    rw [hdropped₁, hnone]
  have hsame : s = s₀.withDropped (ps.countP (maxCores ≤ ·.header.core.toNat)) := by
    have := hdropping 0
    rw [show (new j maxCores).withDropped 0 = new j maxCores from rfl, hrun, Nat.zero_add] at this
    exact this
  have hback : s.withDropped 0 = s₀ := by
    rw [hsame, ← hzero]
    rfl
  rw [hback, hrun₀]

theorem routed_of_filed (hj : NeverFails j) {maxCores : Nat}
    (hrun : processAll (ps.map .packet) (new j maxCores) = (.ok (), s, ps.length))
    (hs : Filed j (routing maxCores ps) (inRange maxCores ps) s)
    (hdropped : s.stats.dropped = ps.countP (maxCores ≤ ·.header.core.toNat)) :
    Routed j maxCores ps s where
  writer := hs.writer
  trace key hkey := by
    rw [routing, filings_about, traceCalls, inTrace_inRange_of_lt hkey, onCore_inRange_of_lt hkey,
      traceCalls]
  only call hcall := by
    obtain ⟨p, hp, hkey⟩ := key_of_mem_filings hcall
    rw [List.nil_append, inRange, List.mem_filter, decide_eq_true_eq] at hp
    exact ⟨p, hp.1, hp.2, hkey⟩
  closing := finish_eq hj hs
  nodup := hs.nodup
  mem_streams key := by
    rw [hs.mem_streams, List.mem_map]
    simp only [inRange, List.mem_filter, decide_eq_true_eq, and_assoc]
  ascending := entries_ascending hs
  mem_entries := mem_map_key_entries_iff hs
  entries _ he := tells_inRange hs he
  stats := by rw [← hs.packets, ← hs.samples, ← hs.boundaries, ← hdropped]
  dropping := processAll_new_inRange hj hrun

/-- **Packets are routed by core and process.**  A new splitter with a writer that never fails
handles any packets to the last.  What it does for the packets of one core is the same whatever
packets of other cores come in between; only the locations may differ then, and not even these if
the writer chooses them by trace and identity. -/
theorem processAll_routes (hj : NeverFails j) (maxCores : Nat) (ps : List Packet) :
    ∃ s, processAll (ps.map .packet) (new j maxCores) = (.ok (), s, ps.length) ∧
      Routed j maxCores ps s ∧
      ∀ (core : UInt8) (qs : List Packet), onCore core qs = onCore core ps →
        ∃ s', processAll (qs.map .packet) (new j maxCores) = (.ok (), s', qs.length) ∧
          s'.writer = after j (routing maxCores qs) ∧
          (routing maxCores qs).filter (onTraceOf core) =
            (routing maxCores ps).filter (onTraceOf core) ∧
          (s'.entries.filter (·.key.core = core)).map (·.unplaced) =
            (s.entries.filter (·.key.core = core)).map (·.unplaced) ∧
          ∀ place, Places j place →
            s'.entries.filter (·.key.core = core) = s.entries.filter (·.key.core = core) := by
  obtain ⟨s, hrun, hs, hdropped⟩ := processAll_new hj maxCores ps
  refine ⟨s, hrun, routed_of_filed hj hrun hs hdropped, ?_⟩
  intro core qs h
  obtain ⟨s', hrun', hs', -⟩ := processAll_new hj maxCores qs
  have hcore : onCore core (inRange maxCores qs) = onCore core (inRange maxCores ps) := by
    rw [onCore_inRange, onCore_inRange, h]
  refine ⟨s', hrun', hs'.writer, ?_, ?_, ?_⟩
  · rw [routing, filings_on, hcore, ← filings_on, routing]
  · refine map_filter_entries_eq hs' hs hcore fun e he e' he' hkey hc => ?_
    exact unplaced_eq (tells_of_mem_entries hs' he) (tells_of_mem_entries hs he') hkey (hc ▸ hcore)
  · intro place hplace
    have hplaced : ∀ e ∈ s'.entries, ∀ e' ∈ s.entries, e.key = e'.key → e.key.core = core →
        id e = id e' := by
      intro e he e' he' hkey hc
      exact placed_eq hplace (tells_of_mem_entries hs' he) (tells_of_mem_entries hs he') hkey
        (hc ▸ hcore)
    have := map_filter_entries_eq hs' hs hcore hplaced
    rwa [List.map_id, List.map_id] at this

/-- Core 0 leaves process 7 and comes back to it; core 5 is out of range. -/
theorem routes_there_and_back :
    NeverFails ({} : TraceJournal) ∧
      ∃ s, processAll
          ([⟨{ core := 0, pid := 7 }, [.zero], "a", "/a"⟩, ⟨{ core := 0, pid := 8 }, [], "b", "/b"⟩,
            ⟨{ core := 5, pid := 7 }, [], "c", "/c"⟩,
            ⟨{ core := 0, pid := 7 }, [.zero], "d", "/d"⟩].map .packet)
          (new ({} : TraceJournal) 2) = (.ok (), s, 4) ∧
        s.stats = { packets := 3, samples := 2, boundaries := 2, dropped := 1 } := by
  have hj : NeverFails ({} : TraceJournal) := TraceJournal.neverFails rfl
  obtain ⟨s, hrun, hs, -⟩ := processAll_routes hj 2
    [⟨{ core := 0, pid := 7 }, [.zero], "a", "/a"⟩, ⟨{ core := 0, pid := 8 }, [], "b", "/b"⟩,
      ⟨{ core := 5, pid := 7 }, [], "c", "/c"⟩, ⟨{ core := 0, pid := 7 }, [.zero], "d", "/d"⟩]
  exact ⟨hj, s, hrun, hs.stats.trans (by decide)⟩

end Splitter

end CounterTrace
