import CounterTrace.Proofs.Trace.Calls
import Mathlib.Data.List.Induction

/-!
# Filing packets

The calls that a splitter makes for a packet follow from the packets filed before it: a boundary in
the trace that the core leaves, the opening of the packet's own trace if it is the first one there,
and its samples.  Here these calls are a list, computed from the packets alone, and what they come
to for one trace or one core is read off it.

    (filings [] ps).filter (about key)            the opening of the trace, then `traceOf key` of
                                                  the packets of its core           (filings_about)
    (filings [] ps).filter (onTraceOf core)       the filings of the core's own packets (filings_on)
-/

namespace CounterTrace

open Splitter

/-! ## The calls for packets -/

def onCore (core : UInt8) (ps : List Packet) : List Packet := ps.filter (·.header.core = core)

/-- The boundary that a packet causes, after other packets: if the last packet of its core was of
another process, that one's trace gets it. -/
def leaving (filed : List Packet) (p : Packet) : List WriterCall :=
  match (onCore p.header.core filed).getLast? with
  | none => []
  | some q => if q.header.pid = p.header.pid then [] else [.boundary (keyOf q)]

/-- The opening that a packet causes, after other packets. -/
def opening (filed : List Packet) (p : Packet) : List WriterCall :=
  if keyOf p ∈ filed.map keyOf then [] else [.openTrace (keyOf p) p.cmdline p.executable]

/-- All calls for one packet. -/
def filing (filed : List Packet) (p : Packet) : List WriterCall :=
  leaving filed p ++ opening filed p ++ [.samples (keyOf p) p.samples]

/-- All calls for packets that come after others. -/
def filings (filed : List Packet) : List Packet → List WriterCall
  | [] => []
  | p :: ps => filing filed p ++ filings (filed ++ [p]) ps

theorem filings_append (filed ps qs : List Packet) :
    filings filed (ps ++ qs) = filings filed ps ++ filings (filed ++ ps) qs := by
  induction ps generalizing filed with
  | nil => simp [filings]
  | cons p ps ih => simp [filings, ih]

/-! ## One trace -/

def inTrace (key : StreamKey) (ps : List Packet) : List Packet := ps.filter (keyOf · = key)

/-- What the trace of a process receives from the packets of its core: the samples of its own
packets, and a boundary wherever a packet of another process follows directly. -/
def traceOf (key : StreamKey) : List Packet → List WriterCall
  | [] => []
  | p :: rest =>
    (if p.header.pid = key.pid then
      .samples key p.samples ::
        (if rest.head?.any (·.header.pid ≠ key.pid) then [.boundary key] else [])
    else []) ++ traceOf key rest

/-- All calls about a trace: its opening with the identity of its first packet, then what it
receives from the packets of its core. -/
def traceCalls (key : StreamKey) (ps : List Packet) : List WriterCall :=
  match (inTrace key ps).head? with
  | none => []
  | some first => .openTrace key first.cmdline first.executable :: traceOf key (onCore key.core ps)

/-- What one more packet on the core adds. -/
theorem traceOf_concat (key : StreamKey) (ps : List Packet) (p : Packet) :
    traceOf key (ps ++ [p]) = traceOf key ps ++
      (if p.header.pid = key.pid then [.samples key p.samples]
      else if ps.getLast?.any (·.header.pid = key.pid) then [.boundary key] else []) := by
  induction ps with
  | nil => simp [traceOf]
  | cons q rest ih =>
    simp only [List.cons_append, traceOf, ih]
    cases rest with
    | nil =>
      by_cases hq : q.header.pid = key.pid <;> by_cases hp : p.header.pid = key.pid <;>
        simp [traceOf, hq, hp]
    | cons r rest =>
      simp only [List.cons_append, List.head?_cons, List.getLast?_cons_cons, List.append_assoc]
      rfl

/-- A process that has no packet on the core receives nothing. -/
theorem traceOf_eq_nil {key : StreamKey} {ps : List Packet}
    (h : ∀ p ∈ ps, p.header.pid ≠ key.pid) : traceOf key ps = [] := by
  induction ps with
  | nil => rfl
  | cons p rest ih =>
    simp only [traceOf, h p List.mem_cons_self, if_false, List.nil_append]
    exact ih fun q hq => h q (List.mem_cons_of_mem _ hq)

/-- A trace receives samples and boundaries and nothing else. -/
theorem eq_of_mem_traceOf {key : StreamKey} {ps : List Packet} {call : WriterCall}
    (h : call ∈ traceOf key ps) : (∃ ss, call = .samples key ss) ∨ call = .boundary key := by
  induction ps with
  | nil => cases h
  | cons p ps ih =>
    unfold traceOf at h
    rcases List.mem_append.1 h with h | h
    · split at h
      · rcases List.mem_cons.1 h with rfl | h
        · exact .inl ⟨_, rfl⟩
        · split at h
          · exact .inr (List.mem_singleton.1 h)
          · cases h
      · cases h
    · exact ih h

def about (key : StreamKey) (call : WriterCall) : Bool := call.key? = some key

def onTraceOf (core : UInt8) (call : WriterCall) : Bool := call.key?.any (·.core = core)

theorem keyOf_eq_iff {p : Packet} {key : StreamKey} :
    keyOf p = key ↔ p.header.core = key.core ∧ p.header.pid = key.pid := by
  cases key
  simp [keyOf]

theorem core_of_getLast?_onCore {core : UInt8} {ps : List Packet} {q : Packet}
    (h : (onCore core ps).getLast? = some q) : q ∈ ps ∧ q.header.core = core := by
  have := List.mem_of_getLast? h
  simpa [onCore] using this

/-- A packet marks a boundary in a trace if it is the trace's core that goes over to another
process. -/
theorem leaving_about (key : StreamKey) (filed : List Packet) (p : Packet) :
    (leaving filed p).filter (about key) =
      if p.header.core = key.core ∧ p.header.pid ≠ key.pid ∧
          (onCore key.core filed).getLast?.any (·.header.pid = key.pid) then
        [.boundary key]
      else [] := by
  by_cases hc : p.header.core = key.core
  · rw [leaving, hc]
    cases hl : (onCore key.core filed).getLast? with
    | none => simp
    | some q =>
      have hq := (core_of_getLast?_onCore hl).2
      by_cases hp : q.header.pid = p.header.pid
      · by_cases hk : p.header.pid = key.pid <;> simp [hp, hk]
      · by_cases hk : q.header.pid = key.pid
        · have hqk : keyOf q = key := keyOf_eq_iff.2 ⟨hq, hk⟩
          have hpk : p.header.pid ≠ key.pid := fun h => hp (hk.trans h.symm)
          simp [hk, hpk, hqk, about, WriterCall.key?, Ne.symm hpk]
        · have hqk : keyOf q ≠ key := fun h => hk (keyOf_eq_iff.1 h).2
          simp [hp, hk, hqk, about, WriterCall.key?]
  · have hl : ∀ call ∈ leaving filed p, about key call = false := by
      intro call hcall
      simp only [leaving] at hcall
      split at hcall
      · simp at hcall
      · next q hq =>
        have hqk : keyOf q ≠ key := fun h =>
          hc ((core_of_getLast?_onCore hq).2.symm.trans (keyOf_eq_iff.1 h).1)
        split at hcall
        · simp at hcall
        · simp only [List.mem_singleton] at hcall
          simp [hcall, about, WriterCall.key?, hqk]
    rw [List.filter_eq_nil_iff.2 fun call h => by simp [hl call h]]
    simp [hc]

/-- What a packet has for a trace: samples if it is its own, perhaps a boundary if it is of the same
core, nothing otherwise. -/
theorem filing_about (key : StreamKey) (filed : List Packet) (p : Packet) :
    (filing filed p).filter (about key) =
      if keyOf p = key then opening filed p ++ [.samples key p.samples]
      else if p.header.core = key.core ∧
          (onCore key.core filed).getLast?.any (·.header.pid = key.pid) then
        [.boundary key]
      else [] := by
  have hopen : ∀ call ∈ opening filed p, call.key? = some (keyOf p) := by
    intro call hcall
    simp only [opening] at hcall
    split at hcall
    · simp at hcall
    · simp only [List.mem_singleton] at hcall
      rw [hcall]
      rfl
  simp only [filing, List.filter_append, leaving_about]
  by_cases hk : keyOf p = key
  · have hpid := (keyOf_eq_iff.1 hk).2
    have : (opening filed p).filter (about key) = opening filed p :=
      List.filter_eq_self.2 fun call h => by simp [about, hopen call h, hk]
    simp [this, hk, hpid, about, WriterCall.key?]
  · have : (opening filed p).filter (about key) = [] :=
      List.filter_eq_nil_iff.2 fun call h => by simp [about, hopen call h, hk]
    have hpid : p.header.core = key.core → p.header.pid ≠ key.pid :=
      fun hc hp => hk (keyOf_eq_iff.2 ⟨hc, hp⟩)
    by_cases hc : p.header.core = key.core
    · simp [this, hk, hc, hpid hc, about, WriterCall.key?]
    · simp [this, hk, hc, about, WriterCall.key?]

theorem onCore_concat (core : UInt8) (ps : List Packet) (p : Packet) :
    onCore core (ps ++ [p]) = onCore core ps ++ if p.header.core = core then [p] else [] := by
  by_cases h : p.header.core = core <;> simp [onCore, h]

theorem filings_concat (ps : List Packet) (p : Packet) :
    filings [] (ps ++ [p]) = filings [] ps ++ filing ps p := by
  simp [filings_append, filings]

theorem inTrace_append (key : StreamKey) (ps qs : List Packet) :
    inTrace key (ps ++ qs) = inTrace key ps ++ inTrace key qs := List.filter_append ..

theorem inTrace_concat (key : StreamKey) (ps : List Packet) (p : Packet) :
    inTrace key (ps ++ [p]) = inTrace key ps ++ if keyOf p = key then [p] else [] := by
  by_cases h : keyOf p = key <;> simp [inTrace, h]

/-- The packets of a trace are all on its core. -/
theorem inTrace_onCore (key : StreamKey) (ps : List Packet) :
    inTrace key (onCore key.core ps) = inTrace key ps := by
  rw [inTrace, onCore, List.filter_filter, inTrace]
  refine List.filter_congr fun p _ => ?_
  by_cases h : keyOf p = key
  · simp [h, (keyOf_eq_iff.1 h).1]
  · simp [h]

theorem inTrace_eq_nil_iff {key : StreamKey} {ps : List Packet} :
    inTrace key ps = [] ↔ key ∉ ps.map keyOf := by
  simp [inTrace, List.filter_eq_nil_iff]

/-- As long as a trace has no packet, its core has nothing for it. -/
theorem traceOf_onCore_eq_nil {key : StreamKey} {ps : List Packet} (h : inTrace key ps = []) :
    traceOf key (onCore key.core ps) = [] := by
  refine traceOf_eq_nil fun p hp hpid => ?_
  obtain ⟨hmem, hcore⟩ := List.mem_filter.1 hp
  rw [inTrace_eq_nil_iff] at h
  rw [← keyOf_eq_iff.2 ⟨of_decide_eq_true hcore, hpid⟩] at h
  exact h (List.mem_map_of_mem hmem)

/-- As long as a trace has no packet, the last packet of its core is of another process. -/
theorem any_getLast?_onCore_eq_false {key : StreamKey} {ps : List Packet}
    (h : inTrace key ps = []) :
    (onCore key.core ps).getLast?.any (·.header.pid = key.pid) = false := by
  cases hlast : (onCore key.core ps).getLast? with
  | none => rfl
  | some q =>
    obtain ⟨hmem, hcore⟩ := core_of_getLast?_onCore hlast
    refine decide_eq_false fun hpid => ?_
    rw [inTrace_eq_nil_iff, ← keyOf_eq_iff.2 ⟨hcore, hpid⟩] at h
    exact h (List.mem_map_of_mem hmem)

/-- All calls about one trace: its opening with the identity of its first packet, and then what its
core has for it. -/
theorem filings_about (key : StreamKey) (ps : List Packet) :
    (filings [] ps).filter (about key) = traceCalls key ps := by
  induction ps using List.reverseRecOn with
  | nil => rfl
  | append_singleton ps p ih =>
    rw [filings_concat, List.filter_append, ih, filing_about]
    unfold traceCalls
    rw [onCore_concat, inTrace_concat]
    by_cases hk : keyOf p = key
    · obtain ⟨hcore, hpid⟩ := keyOf_eq_iff.1 hk
      rw [if_pos hk, if_pos hk, if_pos hcore, traceOf_concat, if_pos hpid]
      cases hin : inTrace key ps with
      | nil =>
        have hnew : keyOf p ∉ ps.map keyOf := hk ▸ inTrace_eq_nil_iff.1 hin
        simp [hk, traceOf_onCore_eq_nil hin, opening, hk ▸ hnew]
      | cons first rest =>
        have hold : keyOf p ∈ ps.map keyOf := by
          rw [hk]
          by_contra hnot
          rw [inTrace_eq_nil_iff.2 hnot] at hin
          cases hin
        simp [opening, hold]
    · rw [if_neg hk, if_neg hk, List.append_nil]
      by_cases hc : p.header.core = key.core
      · have hpid : p.header.pid ≠ key.pid := fun hp => hk (keyOf_eq_iff.2 ⟨hc, hp⟩)
        rw [if_pos hc, traceOf_concat, if_neg hpid]
        cases hin : inTrace key ps with
        | nil => simp [any_getLast?_onCore_eq_false hin]
        | cons first rest => simp [hc]
      · simp [hc]

/-! ## One core -/

@[simp]
theorem onCore_onCore (core : UInt8) (ps : List Packet) :
    onCore core (onCore core ps) = onCore core ps := by simp [onCore]

/-- Every call for a packet is about the trace of a packet of its core that was filed before, or of
its own. -/
theorem key_of_mem_filing {filed : List Packet} {p : Packet} {call : WriterCall}
    (h : call ∈ filing filed p) :
    ∃ q ∈ filed ++ [p], q.header.core = p.header.core ∧ call.key? = some (keyOf q) := by
  simp only [filing, List.mem_append, List.mem_singleton, leaving, opening] at h
  rcases h with (h | h) | rfl
  · split at h
    · simp at h
    · next q hq =>
      obtain ⟨hmem, hcore⟩ := core_of_getLast?_onCore hq
      split at h
      · simp at h
      · rw [List.mem_singleton.1 h]
        exact ⟨q, List.mem_append_left _ hmem, hcore, rfl⟩
  · split at h
    · simp at h
    · rw [List.mem_singleton.1 h]
      exact ⟨p, by simp, rfl, rfl⟩
  · exact ⟨p, by simp, rfl, rfl⟩

theorem key_of_mem_filings {filed ps : List Packet} {call : WriterCall}
    (h : call ∈ filings filed ps) : ∃ p ∈ filed ++ ps, call.key? = some (keyOf p) := by
  induction ps generalizing filed with
  | nil => simp [filings] at h
  | cons p ps ih =>
    rcases List.mem_append.1 h with h | h
    · obtain ⟨q, hq, -, hkey⟩ := key_of_mem_filing h
      refine ⟨q, ?_, hkey⟩
      rcases List.mem_append.1 hq with hq | hq
      · exact List.mem_append_left _ hq
      · rw [List.mem_singleton.1 hq]
        exact List.mem_append_right _ List.mem_cons_self
    · obtain ⟨q, hq, hkey⟩ := ih h
      exact ⟨q, by simpa using hq, hkey⟩

theorem onTraceOf_of_mem_filing {filed : List Packet} {p : Packet} {call : WriterCall}
    (h : call ∈ filing filed p) (core : UInt8) :
    onTraceOf core call = decide (p.header.core = core) := by
  obtain ⟨q, -, hcore, hkey⟩ := key_of_mem_filing h
  simp [onTraceOf, hkey, keyOf, hcore]

/-- The calls for a packet depend on the packets of its core only. -/
theorem filing_onCore (filed : List Packet) (p : Packet) :
    filing (onCore p.header.core filed) p = filing filed p := by
  have hmem : keyOf p ∈ (onCore p.header.core filed).map keyOf ↔ keyOf p ∈ filed.map keyOf := by
    simp only [List.mem_map, onCore, List.mem_filter, decide_eq_true_eq]
    constructor
    · rintro ⟨q, ⟨hq, -⟩, h⟩
      exact ⟨q, hq, h⟩
    · rintro ⟨q, hq, h⟩
      exact ⟨q, ⟨hq, (keyOf_eq_iff.1 h).1⟩, h⟩
  simp only [filing, leaving, opening, onCore_onCore, hmem]

/-- The calls about the traces of a core are those for its own packets, whatever packets of other
cores come in between. -/
theorem filings_on (core : UInt8) (filed ps : List Packet) :
    (filings filed ps).filter (onTraceOf core) =
      filings (onCore core filed) (onCore core ps) := by
  induction ps generalizing filed with
  | nil => rfl
  | cons p ps ih =>
    rw [filings, List.filter_append, ih, onCore_concat]
    by_cases hc : p.header.core = core
    · have hall : (filing filed p).filter (onTraceOf core) = filing filed p :=
        List.filter_eq_self.2 fun call h => by simp [onTraceOf_of_mem_filing h, hc]
      subst hc
      rw [hall, ← filing_onCore]
      simp [onCore, filings]
    · have hnone : (filing filed p).filter (onTraceOf core) = [] :=
        List.filter_eq_nil_iff.2 fun call h => by simp [onTraceOf_of_mem_filing h, hc]
      simp [hnone, hc, onCore]

end CounterTrace
