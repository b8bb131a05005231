import CounterTrace.Proofs.Trace.Files
import CounterTrace.Proofs.Trace.Routing

/-!
# What a trace directory holds

Every call to a directory writes to one file at most.  It either makes the file anew, whatever was
in it, or writes behind what is there.

    (ask d call).2.files.get? name    made of the bytes before and those of the call, if it is the
                                      file of the call, and otherwise as it was      (get?_ask)

In the course of a session a file is made anew only if it is not there yet, except that a
description takes the place of an earlier one (`made_once`).  So all other files grow at their ends
(`kept`), and at the end the directory holds the last description, the index, and for each trace its
header and its entries (`directory_holds_session`).
-/

namespace CounterTrace

open TraceWriter

/-! ## Calls and files -/

namespace WriterCall

def file? (f : TraceFormat) : WriterCall → Option String
  | describe _ => some TraceDirectory.setupName
  | openTrace key _ _ => some (f.fileName key)
  | samples key _ => some (f.fileName key)
  | boundary key => some (f.fileName key)
  | close _ => none
  | index _ => some TraceDirectory.indexName

/-- Whether a call makes its file anew, so that nothing is left of what was in it. -/
def makesAnew : WriterCall → Bool
  | describe _ => true
  | openTrace .. => true
  | index _ => true
  | _ => false

def bytes (f : TraceFormat) : WriterCall → List UInt8
  | describe d => Utf8.encode d.text
  | openTrace _ c e => f.header c e
  | samples _ ss => (ss.map TraceEvent.sample).flatMap f.event
  | boundary _ => [TraceEvent.boundary].flatMap f.event
  | close _ => []
  | index entries => Utf8.encode (indexText entries)

def description? : WriterCall → Option Description
  | describe d => some d
  | _ => none

theorem file?_eq_setupName_iff {f : TraceFormat} {call : WriterCall} :
    call.file? f = some TraceDirectory.setupName ↔ ∃ d, call = .describe d := by
  constructor
  · intro h
    cases call with
    | describe d => exact ⟨d, rfl⟩
    | openTrace key c e => exact absurd (Option.some.inj h) (f.fileName_ne key).1
    | samples key ss => exact absurd (Option.some.inj h) (f.fileName_ne key).1
    | boundary key => exact absurd (Option.some.inj h) (f.fileName_ne key).1
    | close key => cases h
    | index entries => exact absurd (Option.some.inj h) (by decide)
  · rintro ⟨d, rfl⟩
    rfl

theorem file?_eq_indexName_iff {f : TraceFormat} {call : WriterCall} :
    call.file? f = some TraceDirectory.indexName ↔ ∃ entries, call = .index entries := by
  constructor
  · intro h
    cases call with
    | describe d => exact absurd (Option.some.inj h) (by decide)
    | openTrace key c e => exact absurd (Option.some.inj h) (f.fileName_ne key).2
    | samples key ss => exact absurd (Option.some.inj h) (f.fileName_ne key).2
    | boundary key => exact absurd (Option.some.inj h) (f.fileName_ne key).2
    | close key => cases h
    | index entries => exact ⟨entries, rfl⟩
  · rintro ⟨entries, rfl⟩
    rfl

theorem file?_eq_fileName_iff {f : TraceFormat} {call : WriterCall} {key : StreamKey} :
    call.file? f = some (f.fileName key) ↔ about key call = true ∧ call ≠ .close key := by
  have hkey : ∀ k, some (f.fileName k) = some (f.fileName key) ↔ k = key := fun k => by
    rw [Option.some.injEq, TraceFormat.fileName_inj]
  cases call with
  | describe d => simp [file?, about, key?, Ne.symm (f.fileName_ne key).1]
  | openTrace k c e => simp [file?, about, key?, hkey]
  | samples k ss => simp [file?, about, key?, hkey]
  | boundary k => simp [file?, about, key?, hkey]
  | close k => simp [file?, about, key?]
  | index entries => simp [file?, about, key?, Ne.symm (f.fileName_ne key).2]

end WriterCall

namespace TraceDirectory

/-! ## One call -/

/-- All that a call can do to a file. -/
theorem get?_ask (d : TraceDirectory) (call : WriterCall) (name : String) :
    (ask d call).2.files.get? name =
      if call.file? d.format = some name then
        some ((if call.makesAnew then [] else (d.files.get? name).getD []) ++ call.bytes d.format)
      else d.files.get? name := by
  have hinsert : ∀ (other : String) (content : List UInt8),
      (d.files.insert other content).get? name =
        if some other = some name then some content else d.files.get? name := by
    intro other content
    rw [Table.get?_insert]
    by_cases h : name = other
    · rw [if_pos h, if_pos (congrArg some h.symm)]
    · rw [if_neg h, if_neg fun heq => h (Option.some.inj heq).symm]
  have hrecord : ∀ (other : String) (content : List UInt8),
      (d.append other content).files.get? name =
        if some other = some name then some ((d.files.get? name).getD [] ++ content)
        else d.files.get? name := by
    intro other content
    refine (hinsert _ _).trans ?_
    by_cases h : some other = some name
    · rw [if_pos h, if_pos h, Option.some.inj h]
    · rw [if_neg h, if_neg h]
  cases call with
  | describe description => exact hinsert _ _
  | openTrace key c e => exact hinsert _ _
  | samples key ss => exact hrecord _ _
  | boundary key => exact hrecord _ _
  | close key => rfl
  | index entries => exact hinsert _ _

/-! ## Many calls -/

section
variable {d : TraceDirectory} {name : String} {calls : List WriterCall}

theorem after_cons (d : TraceDirectory) (call : WriterCall) (calls : List WriterCall) :
    after d (call :: calls) = after (ask d call).2 calls := rfl

/-- A file is there if it was there or if a call wrote to it. -/
theorem isSome_get?_after (d : TraceDirectory) (calls : List WriterCall) (name : String) :
    ((after d calls).files.get? name).isSome ↔
      (d.files.get? name).isSome ∨ ∃ call ∈ calls, call.file? d.format = some name := by
  induction calls generalizing d with
  | nil => simp
  | cons call calls ih =>
    rw [after_cons, ih, (ask_ok d call).2, get?_ask]
    by_cases h : call.file? d.format = some name
    · simp [h]
    · simp [h]

/-- A file that is not made anew grows at its end. -/
theorem grows_after {bytes : List UInt8} (hfile : d.files.get? name = some bytes)
    (h : ∀ call ∈ calls, call.makesAnew = true → call.file? d.format ≠ some name) :
    ∃ more, (after d calls).files.get? name = some (bytes ++ more) := by
  induction calls generalizing d bytes with
  | nil => exact ⟨[], by rw [List.append_nil]; exact hfile⟩
  | cons call calls ih =>
    have hrest : ∀ other ∈ calls, other.makesAnew = true →
        other.file? (ask d call).2.format ≠ some name := by
      intro other hother
      rw [(ask_ok d call).2]
      exact h other (List.mem_cons_of_mem _ hother)
    have hstep := get?_ask d call name
    rw [hfile] at hstep
    by_cases hcall : call.file? d.format = some name
    · have hold : call.makesAnew = false := by
        cases hanew : call.makesAnew with
        | false => rfl
        | true => exact absurd hcall (h call List.mem_cons_self hanew)
      rw [if_pos hcall, hold] at hstep
      obtain ⟨more, hmore⟩ := ih hstep hrest
      refine ⟨call.bytes d.format ++ more, ?_⟩
      rw [after_cons, hmore, ← List.append_assoc]
      rfl
    · rw [if_neg hcall] at hstep
      exact ih hstep hrest

/-- The last description that was stored is the one that is kept. -/
theorem get?_setupName_after :
    (after d calls).files.get? setupName =
      (((calls.filterMap WriterCall.description?).getLast?.map fun x => Utf8.encode x.text).or
        (d.files.get? setupName)) := by
  induction calls generalizing d with
  | nil => rfl
  | cons call calls ih =>
    rw [after_cons, ih, get?_ask]
    by_cases h : call.file? d.format = some setupName
    · obtain ⟨x, rfl⟩ := WriterCall.file?_eq_setupName_iff.1 h
      have hx : (WriterCall.describe x :: calls).filterMap WriterCall.description? =
          x :: calls.filterMap WriterCall.description? := rfl
      rw [if_pos h, hx, List.getLast?_cons]
      cases (calls.filterMap WriterCall.description?).getLast? with
      | none => rfl
      | some y => rfl
    · have hnone : call.description? = none := by
        cases call with
        | describe x => exact absurd rfl h
        | _ => rfl
      rw [if_neg h, List.filterMap_cons_none hnone]

end

end TraceDirectory

/-! ## The calls of a session -/

theorem eventsOf_filter_about (key : StreamKey) (calls : List WriterCall) :
    eventsOf key (calls.filter (about key)) = eventsOf key calls := by
  induction calls with
  | nil => rfl
  | cons call calls ih =>
    have hcons : ∀ rest, eventsOf key (call :: rest) = eventsOf key [call] ++ eventsOf key rest :=
      eventsOf_append key [call]
    by_cases h : about key call = true
    · rw [List.filter_cons_of_pos h, hcons, ih, hcons calls]
    · have hnothing : eventsOf key [call] = [] := by
        cases call with
        | samples k ss =>
          have hk : k ≠ key := by simpa [about, WriterCall.key?] using h
          simp [eventsOf, hk]
        | boundary k =>
          have hk : k ≠ key := by simpa [about, WriterCall.key?] using h
          simp [eventsOf, hk]
        | _ => rfl
      rw [List.filter_cons_of_neg h, ih, hcons calls, hnothing, List.nil_append]

namespace Splitter

def descriptionsOf (frames : List Frame) : List Description :=
  frames.filterMap fun
    | .description x => some x
    | .packet _ => none

theorem description?_of_mem_filing {filed : List Packet} {p : Packet} {call : WriterCall}
    (h : call ∈ filing filed p) : call.description? = none := by
  obtain ⟨q, -, -, hkey⟩ := key_of_mem_filing h
  cases call with
  | describe x => cases hkey
  | _ => rfl

theorem descriptions_callsFor (maxCores : Nat) (filed : List Packet) (frames : List Frame) :
    (callsFor maxCores filed frames).filterMap WriterCall.description? = descriptionsOf frames := by
  induction frames generalizing filed with
  | nil => rfl
  | cons frame frames ih =>
    cases frame with
    | description x => exact congrArg (x :: ·) (ih filed)
    | packet p =>
      have hnone : (filing filed p).filterMap WriterCall.description? = [] :=
        List.filterMap_eq_nil_iff.2 fun call hcall => description?_of_mem_filing hcall
      unfold callsFor
      split
      · rw [List.filterMap_append, hnone, List.nil_append]
        exact ih _
      · exact ih filed

theorem callsFor_about (maxCores : Nat) (key : StreamKey) (filed : List Packet)
    (frames : List Frame) :
    (callsFor maxCores filed frames).filter (about key) =
      (filings filed (inRange maxCores (packetsOf frames))).filter (about key) := by
  induction frames generalizing filed with
  | nil => rfl
  | cons frame frames ih =>
    cases frame with
    | description x => exact ih filed
    | packet p =>
      have hpackets : packetsOf (.packet p :: frames) = p :: packetsOf frames := rfl
      unfold callsFor
      rw [hpackets, inRange]
      by_cases hp : p.header.core.toNat < maxCores
      · rw [if_pos hp, List.filter_cons_of_pos (by simpa using hp), filings, List.filter_append,
          List.filter_append, ih]
        rfl
      · rw [if_neg hp, List.filter_cons_of_neg (by simpa using hp), ih]
        rfl

theorem callsFor_append (maxCores : Nat) (filed : List Packet) (front back : List Frame) :
    callsFor maxCores filed (front ++ back) =
      callsFor maxCores filed front ++
        callsFor maxCores (filed ++ inRange maxCores (packetsOf front)) back := by
  induction front generalizing filed with
  | nil => simp [callsFor, packetsOf, inRange]
  | cons frame front ih =>
    cases frame with
    | description x =>
      rw [List.cons_append, callsFor_description, callsFor_description, ih]
      rfl
    | packet p =>
      have hpackets : packetsOf (.packet p :: front) = p :: packetsOf front := rfl
      rw [List.cons_append, callsFor, callsFor, hpackets, inRange]
      by_cases hp : p.header.core.toNat < maxCores
      · rw [if_pos hp, if_pos hp, List.filter_cons_of_pos (by simpa using hp), ih,
          List.append_assoc, List.append_assoc, List.singleton_append]
        rfl
      · rw [if_neg hp, if_neg hp, List.filter_cons_of_neg (by simpa using hp), ih]
        rfl

section
variable (maxCores : Nat) (filed : List Packet) (frames : List Frame) (keys : List StreamKey)
  (entries : List IndexEntry)

theorem sessionCalls_append (front back : List Frame) :
    sessionCalls maxCores filed (front ++ back) keys entries =
      callsFor maxCores filed front ++
        sessionCalls maxCores (filed ++ inRange maxCores (packetsOf front)) back keys entries := by
  simp only [sessionCalls, callsFor_append, List.append_assoc]

theorem descriptions_sessionCalls :
    (sessionCalls maxCores filed frames keys entries).filterMap WriterCall.description? =
      descriptionsOf frames := by
  have hclose : (keys.map WriterCall.close).filterMap WriterCall.description? = [] := by
    rw [List.filterMap_map]
    exact List.filterMap_eq_nil_iff.2 fun _ _ => rfl
  rw [sessionCalls, List.filterMap_append, List.filterMap_append, descriptions_callsFor, hclose,
    List.append_nil]
  exact List.append_nil _

/-- All calls about a trace: those for its packets, and then nothing but closing. -/
theorem sessionCalls_about (key : StreamKey) :
    ∃ closing, (∀ call ∈ closing, ∃ k, call = .close k) ∧
      (sessionCalls maxCores [] frames keys entries).filter (about key) =
        traceCalls key (inRange maxCores (packetsOf frames)) ++ closing := by
  refine ⟨(keys.map WriterCall.close).filter (about key), ?_, ?_⟩
  · intro call hcall
    obtain ⟨k, -, rfl⟩ := List.mem_map.1 (List.mem_filter.1 hcall).1
    exact ⟨k, rfl⟩
  · rw [sessionCalls, List.filter_append, List.filter_append, callsFor_about, filings_about]
    exact List.append_nil _

end

/-- A trace has calls of its own if and only if it has a packet. -/
theorem exists_mem_traceCalls_iff {key : StreamKey} {ps : List Packet} :
    (∃ call, call ∈ traceCalls key ps) ↔ ∃ p ∈ ps, keyOf p = key := by
  unfold traceCalls
  constructor
  · rintro ⟨call, hcall⟩
    cases hfirst : (inTrace key ps).head? with
    | none =>
      rw [hfirst] at hcall
      cases hcall
    | some first =>
      obtain ⟨hmem, hkey⟩ := List.mem_filter.1 (List.mem_of_head? hfirst)
      exact ⟨first, hmem, of_decide_eq_true hkey⟩
  · rintro ⟨p, hp, hkey⟩
    have hin : p ∈ inTrace key ps := List.mem_filter.2 ⟨hp, decide_eq_true hkey⟩
    cases hfirst : (inTrace key ps).head? with
    | none =>
      rw [List.head?_eq_none_iff.1 hfirst] at hin
      cases hin
    | some first => exact ⟨_, List.mem_cons_self⟩

theorem close_not_mem_traceCalls {key k : StreamKey} {ps : List Packet} :
    .close k ∉ traceCalls key ps := by
  intro h
  unfold traceCalls at h
  split at h
  · cases h
  · rcases List.mem_cons.1 h with heq | h
    · cases heq
    · rcases eq_of_mem_traceOf h with ⟨ss, heq⟩ | heq
      · cases heq
      · cases heq

section
variable {maxCores : Nat} {frames : List Frame} {keys : List StreamKey} {entries : List IndexEntry}

/-- A trace has calls in a session, apart from closing, if and only if it has a packet. -/
theorem exists_fileName_sessionCalls_iff {f : TraceFormat} {key : StreamKey} :
    (∃ call ∈ sessionCalls maxCores [] frames keys entries,
        call.file? f = some (f.fileName key)) ↔
      ∃ p ∈ inRange maxCores (packetsOf frames), keyOf p = key := by
  obtain ⟨closing, hclosing, hcalls⟩ :=
    sessionCalls_about maxCores frames keys entries key
  rw [← exists_mem_traceCalls_iff]
  constructor
  · rintro ⟨call, hcall, hfile⟩
    obtain ⟨habout, hopen⟩ := WriterCall.file?_eq_fileName_iff.1 hfile
    have hmem := List.mem_filter.2 ⟨hcall, habout⟩
    rw [hcalls, List.mem_append] at hmem
    rcases hmem with hmem | hmem
    · exact ⟨call, hmem⟩
    · obtain ⟨k, rfl⟩ := hclosing call hmem
      obtain rfl : k = key := by simpa [about, WriterCall.key?] using habout
      exact absurd rfl hopen
  · rintro ⟨call, hcall⟩
    have hmem := List.mem_append_left closing hcall
    rw [← hcalls, List.mem_filter] at hmem
    refine ⟨call, hmem.1, WriterCall.file?_eq_fileName_iff.2 ⟨hmem.2, ?_⟩⟩
    rintro rfl
    exact close_not_mem_traceCalls hcall

/-- The files that the calls of a session write to. -/
theorem exists_file?_sessionCalls_iff {f : TraceFormat} {name : String} :
    (∃ call ∈ sessionCalls maxCores [] frames keys entries, call.file? f = some name) ↔
      name = TraceDirectory.indexName ∨
        (name = TraceDirectory.setupName ∧ descriptionsOf frames ≠ []) ∨
        ∃ p ∈ inRange maxCores (packetsOf frames), name = f.fileName (keyOf p) := by
  constructor
  · rintro ⟨call, hcall, hfile⟩
    have htrace : ∀ key, some (f.fileName key) = some name → call.file? f = some (f.fileName key) →
        ∃ p ∈ inRange maxCores (packetsOf frames), name = f.fileName (keyOf p) := by
      intro key hname hkey
      obtain ⟨p, hp, rfl⟩ := exists_fileName_sessionCalls_iff.1 ⟨call, hcall, hkey⟩
      exact ⟨p, hp, (Option.some.inj hname).symm⟩
    cases call with
    | describe x =>
      refine .inr (.inl ⟨(Option.some.inj hfile).symm, ?_⟩)
      rw [← descriptions_sessionCalls maxCores [] frames keys entries]
      exact List.ne_nil_of_mem (List.mem_filterMap.2 ⟨_, hcall, rfl⟩)
    | openTrace key c e => exact .inr (.inr (htrace key hfile rfl))
    | samples key ss => exact .inr (.inr (htrace key hfile rfl))
    | boundary key => exact .inr (.inr (htrace key hfile rfl))
    | close key => cases hfile
    | index rows => exact .inl (Option.some.inj hfile).symm
  · rintro (rfl | ⟨rfl, hdescribed⟩ | ⟨p, hp, rfl⟩)
    · exact ⟨.index entries, List.mem_append_right _ List.mem_cons_self, rfl⟩
    · obtain ⟨x, hx⟩ := List.exists_mem_of_ne_nil _ hdescribed
      rw [← descriptions_sessionCalls maxCores [] frames keys entries] at hx
      obtain ⟨call, hcall, hcallx⟩ := List.mem_filterMap.1 hx
      cases call with
      | describe y => exact ⟨_, hcall, rfl⟩
      | _ => cases hcallx
    · exact exists_fileName_sessionCalls_iff.2 ⟨p, hp, rfl⟩

/-- A trace is opened in front of all else that is done with it. -/
theorem not_about_of_openTrace {done rest : List WriterCall} {key : StreamKey} {c e : String}
    (h : sessionCalls maxCores [] frames keys entries = done ++ .openTrace key c e :: rest) :
    ∀ call ∈ done, about key call = false := by
  obtain ⟨closing, hclosing, hcalls⟩ :=
    sessionCalls_about maxCores frames keys entries key
  have habout : about key (.openTrace key c e) = true := by simp [about, WriterCall.key?]
  rw [h, List.filter_append, List.filter_cons_of_pos habout] at hcalls
  have hnone : done.filter (about key) = [] := by
    have hnot : .openTrace key c e ∉ closing := by
      intro hmem
      obtain ⟨k, hk⟩ := hclosing _ hmem
      cases hk
    unfold traceCalls at hcalls
    cases hdone : done.filter (about key) with
    | nil => rfl
    | cons call others =>
      rw [hdone] at hcalls
      have hmem : .openTrace key c e ∈ others ++ .openTrace key c e :: rest.filter (about key) :=
        List.mem_append_right _ List.mem_cons_self
      cases hfirst : (inTrace key (inRange maxCores (packetsOf frames))).head? with
      | none =>
        rw [hfirst, List.nil_append] at hcalls
        exact absurd (hcalls ▸ List.mem_cons_of_mem _ hmem) hnot
      | some first =>
        rw [hfirst, List.cons_append, List.cons_append] at hcalls
        rw [(List.cons.inj hcalls).2, List.mem_append] at hmem
        exact absurd hmem (not_or.2 ⟨openTrace_not_mem_traceOf key c e _, hnot⟩)
  intro call hcall
  exact Bool.eq_false_iff.2 (List.filter_eq_nil_iff.1 hnone call hcall)

/-- The index comes last. -/
theorem not_index_of_index {done rest : List WriterCall} {rows : List IndexEntry}
    (h : sessionCalls maxCores [] frames keys entries = done ++ .index rows :: rest) :
    ∀ other, .index other ∉ done := by
  have hfront : ∀ other, .index other ∉ callsFor maxCores [] frames ++ keys.map .close := by
    intro other hmem
    rcases List.mem_append.1 hmem with hmem | hmem
    · exact index_not_mem_callsFor maxCores [] frames other hmem
    · obtain ⟨k, -, heq⟩ := List.mem_map.1 hmem
      cases heq
  rcases List.eq_nil_or_concat rest with rfl | ⟨front, last, rfl⟩
  · intro other hmem
    have hdone := (List.append_inj' h rfl).1
    exact hfront other (hdone ▸ hmem)
  · -- something comes behind this call, which is the last one
    rw [List.concat_eq_append, ← List.cons_append, ← List.append_assoc] at h
    have hdone := (List.append_inj' h rfl).1
    have hmem : .index rows ∈ done ++ .index rows :: front :=
      List.mem_append_right _ List.mem_cons_self
    exact absurd (hdone ▸ hmem) (hfront rows)

end

end Splitter

/-! ## What a session leaves -/

namespace TraceDirectory

open Splitter

section
variable {d : TraceDirectory} (hd : d.files = Table.empty) {maxCores : Nat} {frames : List Frame}
  {keys : List StreamKey} {entries : List IndexEntry}
include hd

/-- A file is made anew only if it is not there, or to put a description in the place of an earlier
one. -/
theorem made_once {done rest : List WriterCall} {call : WriterCall} {name : String}
    (h : sessionCalls maxCores [] frames keys entries = done ++ call :: rest)
    (hanew : call.makesAnew = true) (hfile : call.file? d.format = some name) :
    (after d done).files.get? name = none ∨
      ∃ x y, call = .describe x ∧ .describe y ∈ done := by
  have hnone : d.files.get? name = none := by
    rw [hd]
    exact Table.get?_empty name
  have hthere := isSome_get?_after d done name
  rw [hnone, Option.isSome_none, Bool.false_eq_true, false_or] at hthere
  cases hold : (after d done).files.get? name with
  | none => exact .inl rfl
  | some bytes =>
    rw [hold] at hthere
    obtain ⟨other, hother, hsame⟩ := hthere.1 rfl
    cases call with
    | describe x =>
      obtain rfl := Option.some.inj hfile
      obtain ⟨y, rfl⟩ := WriterCall.file?_eq_setupName_iff.1 hsame
      exact .inr ⟨x, y, rfl, hother⟩
    | openTrace key c e =>
      obtain rfl := Option.some.inj hfile
      have habout := (WriterCall.file?_eq_fileName_iff.1 hsame).1
      rw [not_about_of_openTrace h other hother] at habout
      cases habout
    | index rows =>
      obtain rfl := Option.some.inj hfile
      obtain ⟨rows', rfl⟩ := WriterCall.file?_eq_indexName_iff.1 hsame
      exact absurd hother (not_index_of_index h rows')
    | samples key ss => cases hanew
    | boundary key => cases hanew
    | close key => cases hanew

/-- With one description at most, no file is made anew that is there. -/
theorem made_once_of_le_one (hone : (descriptionsOf frames).length ≤ 1)
    {done rest : List WriterCall} {call : WriterCall} {name : String}
    (h : sessionCalls maxCores [] frames keys entries = done ++ call :: rest)
    (hanew : call.makesAnew = true) (hfile : call.file? d.format = some name) :
    (after d done).files.get? name = none := by
  rcases made_once hd h hanew hfile with hnone | ⟨x, y, rfl, hy⟩
  · exact hnone
  · -- the two descriptions would be two of the session
    have hboth := descriptions_sessionCalls maxCores [] frames keys entries
    have hlater : (WriterCall.describe x :: rest).filterMap WriterCall.description? =
        x :: rest.filterMap WriterCall.description? := rfl
    rw [h, List.filterMap_append, hlater] at hboth
    have hearlier : 0 < (done.filterMap WriterCall.description?).length :=
      List.length_pos_of_mem (List.mem_filterMap.2 ⟨_, hy, rfl⟩)
    have hlength := congrArg List.length hboth
    rw [List.length_append, List.length_cons] at hlength
    omega

/-- What a file holds at any point of a session stays at its front, unless it is the description and
another one is still to come. -/
theorem kept {done rest : List WriterCall}
    (h : sessionCalls maxCores [] frames keys entries = done ++ rest) {name : String}
    {bytes : List UInt8} (hfile : (after d done).files.get? name = some bytes)
    (hrest : name = setupName → rest.filterMap WriterCall.description? = []) :
    ∃ more, (after d (sessionCalls maxCores [] frames keys entries)).files.get? name =
      some (bytes ++ more) := by
  rw [h, after_append]
  refine grows_after hfile fun call hcall hanew hname => ?_
  rw [format_after] at hname
  obtain ⟨front, back, rfl⟩ := List.append_of_mem hcall
  have hcalls := h.trans (List.append_assoc done front (call :: back)).symm
  rcases made_once hd hcalls hanew hname with hnone | ⟨x, y, rfl, -⟩
  · -- what is there stays there
    have hthere := isSome_get?_after (after d done) front name
    rw [← after_append, hnone, hfile] at hthere
    cases hthere.2 (.inl rfl)
  · have hnil := hrest (Option.some.inj hname).symm
    rw [List.filterMap_eq_nil_iff] at hnil
    cases hnil _ hcall

end

/-- The file of a trace is its header and its entries. -/
theorem traceFile_session (d : TraceDirectory) {maxCores : Nat} {frames : List Frame}
    {keys : List StreamKey} {entries : List IndexEntry} {key : StreamKey} {first : Packet}
    (hfirst : (inTrace key (inRange maxCores (packetsOf frames))).head? = some first) :
    (after d (sessionCalls maxCores [] frames keys entries)).traceFile key =
      some (d.format.header first.cmdline first.executable ++
        (eventsOf key (traceOf key (onCore key.core (inRange maxCores (packetsOf frames))))).flatMap
          d.format.event) := by
  obtain ⟨closing, hclosing, hcalls⟩ :=
    sessionCalls_about maxCores frames keys entries key
  rw [traceCalls, hfirst, List.cons_append] at hcalls
  obtain ⟨done, rest, hsplit, -, -, hrest⟩ := List.filter_eq_cons_iff.1 hcalls
  have hopens : ∀ call ∈ rest, call.opens key = false := by
    intro call hcall
    cases call with
    | openTrace k c e =>
      -- it would be among the calls about the trace, which are others
      refine decide_eq_false fun hk => ?_
      subst hk
      have hmem : .openTrace k c e ∈ rest.filter (about k) :=
        List.mem_filter.2 ⟨hcall, by simp [about, WriterCall.key?]⟩
      rw [hrest, List.mem_append] at hmem
      rcases hmem with hmem | hmem
      · exact openTrace_not_mem_traceOf k c e _ hmem
      · obtain ⟨k', heq⟩ := hclosing _ hmem
        cases heq
    | _ => rfl
  have hevents : eventsOf key rest =
      eventsOf key (traceOf key (onCore key.core (inRange maxCores (packetsOf frames)))) := by
    have hnothing : eventsOf key closing = [] := by
      refine List.flatMap_eq_nil_iff.2 fun call hcall => ?_
      obtain ⟨k, rfl⟩ := hclosing call hcall
      rfl
    rw [← eventsOf_filter_about, hrest, eventsOf_append, hnothing, List.append_nil]
  rw [hsplit, traceFile_after d done key _ _ rest hopens, hevents]

end TraceDirectory

open Splitter in
/-- What a directory holds of a session that was split with it.  It was `d` before, and had no
files. -/
structure SessionFiles (d : TraceDirectory) (maxCores : Nat) (frames : List Frame)
    (s : Splitter TraceDirectory) (d' : TraceDirectory) : Prop where
  calls : d' = after d (sessionCalls maxCores [] frames s.streams s.entries)
  /-- There are the index, the description if there was one, and a file for each trace. -/
  names : ∀ name, (d'.files.get? name).isSome ↔
    name = TraceDirectory.indexName ∨
      (name = TraceDirectory.setupName ∧ descriptionsOf frames ≠ []) ∨
      ∃ p ∈ inRange maxCores (packetsOf frames), name = d.format.fileName (keyOf p)
  description : d'.files.get? TraceDirectory.setupName =
    (descriptionsOf frames).getLast?.map fun x => Utf8.encode x.text
  index : d'.files.get? TraceDirectory.indexName = some (Utf8.encode (indexText s.entries))
  /-- The file of a trace is the header with the identity of its first packet, and then the samples
  and boundaries that its core has for it. -/
  trace : ∀ key first, (inTrace key (inRange maxCores (packetsOf frames))).head? = some first →
    d'.traceFile key = some (d.format.header first.cmdline first.executable ++
      (eventsOf key (traceOf key (onCore key.core (inRange maxCores (packetsOf frames))))).flatMap
        d.format.event)
  /-- No call makes a file anew that is there, except to put a description in the place of an
  earlier one. -/
  once : ∀ done call rest,
    sessionCalls maxCores [] frames s.streams s.entries = done ++ call :: rest →
    call.makesAnew = true → ∀ name, call.file? d.format = some name →
      (after d done).files.get? name = none ∨ ∃ x y, call = .describe x ∧ .describe y ∈ done
  /-- So with one description at most, no call at all makes a file anew that is there. -/
  fresh : (descriptionsOf frames).length ≤ 1 → ∀ done call rest,
    sessionCalls maxCores [] frames s.streams s.entries = done ++ call :: rest →
    call.makesAnew = true → ∀ name, call.file? d.format = some name →
      (after d done).files.get? name = none
  /-- What was written by any point of the session is still there at the end, perhaps with more
  behind it, except for a description that is followed by another one. -/
  kept : ∀ front back, frames = front ++ back → ∃ s₁ : Splitter TraceDirectory,
    processAll front (new d maxCores) = (.ok (), s₁, (packetsOf front).length) ∧
      ∀ name bytes, s₁.writer.files.get? name = some bytes →
        (name = TraceDirectory.setupName → descriptionsOf back = []) →
        ∃ more, d'.files.get? name = some (bytes ++ more)

namespace Splitter

/-- **A directory holds the session.**  A new directory is given any frames, which are all handled,
and then the session is finished.  Traces have files of their own, apart from each other and from
the description and the index.  In the end there are these files and no others: the last
description, if there was one, the index, and for each trace its header and its entries in order.
Nothing that was written to a file is lost, except that a description takes the place of an earlier
one. -/
theorem directory_holds_session (shown path : String) (format : TraceFormat) (maxCores : Nat)
    (frames : List Frame) :
    (∀ key key', format.fileName key = format.fileName key' ↔ key = key') ∧
    (∀ key, format.fileName key ≠ TraceDirectory.setupName ∧
      format.fileName key ≠ TraceDirectory.indexName) ∧
    ∃ d s d', TraceDirectory.create shown path format (.ok ()) = .ok d ∧ d.format = format ∧
      processAll frames (new d maxCores) = (.ok (), s, (packetsOf frames).length) ∧
      s.finish = (.ok (), d') ∧ SessionFiles d maxCores frames s d' := by
  refine ⟨fun key key' => TraceFormat.fileName_inj, fun key => format.fileName_ne key,
    { path := path, format := format }, ?_⟩
  generalize hd : ({ path := path, format := format } : TraceDirectory) = d
  have hfiles : d.files = Table.empty := by rw [← hd]
  have hj := TraceDirectory.neverFails d
  have hfiled : ∀ front, ∃ s, processAll front (new d maxCores) =
      (.ok (), s, (packetsOf front).length) ∧
        Filed d (callsFor maxCores [] front) (inRange maxCores (packetsOf front)) s := by
    intro front
    obtain ⟨s, hrun, hs, -⟩ := processAll_filed hj (filed_new d maxCores) front
    exact ⟨s, hrun, hs⟩
  obtain ⟨s, hrun, hs⟩ := hfiled frames
  have hfinish := finish_eq hj hs
  have hnone : ∀ name, d.files.get? name = none := fun name => by rw [hfiles, Table.get?_empty]
  refine ⟨s, _, by rw [← hd]; rfl, by rw [← hd], hrun, hfinish, rfl, ?_, ?_, ?_, ?_, ?_, ?_, ?_⟩
  · intro name
    rw [TraceDirectory.isSome_get?_after, hnone, Option.isSome_none, Bool.false_eq_true, false_or]
    exact exists_file?_sessionCalls_iff
  · rw [TraceDirectory.get?_setupName_after, hnone, Option.or_none]
    exact congrArg _ (congrArg _ (descriptions_sessionCalls ..))
  · rw [after_append]
    exact (TraceDirectory.get?_ask _ _ _).trans (if_pos rfl)
  · intro key first hfirst
    exact TraceDirectory.traceFile_session d hfirst
  · intro done call rest hcalls hanew name hname
    exact TraceDirectory.made_once hfiles hcalls hanew hname
  · intro hone done call rest hcalls hanew name hname
    exact TraceDirectory.made_once_of_le_one hfiles hone hcalls hanew hname
  · rintro front back rfl
    obtain ⟨s₁, hrun₁, hs₁⟩ := hfiled front
    refine ⟨s₁, hrun₁, fun name bytes hname hback => ?_⟩
    rw [hs₁.writer] at hname
    have hcalls := sessionCalls_append maxCores [] s.streams s.entries front back
    refine TraceDirectory.kept hfiles hcalls hname fun hsetup => ?_
    rw [descriptions_sessionCalls]
    exact hback hsetup

end Splitter

end CounterTrace
