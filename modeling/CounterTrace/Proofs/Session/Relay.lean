import CounterTrace.Identity.ProcessTable
import CounterTrace.Proofs.Session.Sending

/-!
# The reader and the session

A session has a reader of its own that runs ahead and hands what it reads over through a queue.
Reader and session take their steps in any order; the reader waits as long as the queue is full, and
the session as long as it is empty and the reader is not done.

    r.move p                  what a party does in one step, unless it has to wait or is done
    r.outcome                 what comes of the session if it goes on with all that is to come
    r.follow turns = some r' → r'.outcome = r.outcome ∧ turns.length + r'.left ≤ r.left
                                                                       (Relay.follow_eq_some)

One of the two can always go on until the session has ended (`Relay.exists_move`), so every order of
steps comes to an end, with the outcome of `Session.run` (`Relay.outcome_start`).
-/

namespace CounterTrace

/-! ## The parties -/

/-- What the reader does next. -/
inductive ReaderState where
  /-- It drops a buffer if there are some left to drop, and takes the baseline otherwise. -/
  | warming (left : Nat)
  /-- It reads a buffer, and after it the reading with number `next`. -/
  | reading (baseline : UInt32) (next : Nat)
  /-- It hands over a buffer and goes on reading. -/
  | handing (item : Buffer × UInt32) (baseline : UInt32) (next : Nat)
  /-- It hands over a failure and is done. -/
  | reporting (f : Failure)
  | done

namespace ReaderState

/-- A step that only reads. -/
def read (missed : MissedReadings) :
    ReaderState → BufferSource → Option (ReaderState × BufferSource)
  | warming 0, source =>
    match missed 0 with
    | .error f => some (reporting (.within "reading missed baseline" f), source)
    | .ok baseline => some (reading baseline 1, source)
  | warming (_ + 1), [] => some (done, [])
  | warming (_ + 1), .error f :: rest => some (reporting (.within "reading warm-up buffer" f), rest)
  | warming (n + 1), .ok _ :: rest => some (warming n, rest)
  | reading _ _, [] => some (done, [])
  | reading _ _, .error f :: rest => some (reporting f, rest)
  | reading baseline next, .ok b :: rest =>
    match missed next with
    | .error f => some (reporting f, rest)
    | .ok m => some (handing (b, missedSince baseline m) baseline (next + 1), rest)
  | _, _ => none

/-- What the reader hands over, and what it does after that. -/
def offer? : ReaderState → Option (Except Failure (Buffer × UInt32) × ReaderState)
  | handing item baseline next => some (.ok item, reading baseline next)
  | reporting f => some (.error f, done)
  | _ => none

end ReaderState

/-- What the session does next. -/
inductive SessionStage where
  /-- It sends the description. -/
  | opening
  /-- It takes an item from the queue, and sends the batch if it is one. -/
  | receiving
  /-- It closes the transport. -/
  | closing (reason : StopReason)
  | ended (result : Except Failure StopReason)

/-- A session and its reader. -/
structure Relay (l : Type) where
  /-- Items that the queue holds at most; there is room for one in any case. -/
  depth : Nat
  missed : MissedReadings
  description : Description
  /-- What the reader has not read yet. -/
  source : BufferSource
  reader : ReaderState
  queue : List (Except Failure (Buffer × UInt32)) := []
  stage : SessionStage := .opening
  session : Session l
  transport : Transport

/-- Whose turn it is. -/
inductive RelayParty where
  | reader
  | session
  deriving DecidableEq, Repr

namespace Relay

variable {l : Type}

/-- A session that has not begun, with a queue of some depth. -/
def start (depth : Nat) (s : Session l) (source : BufferSource) (missed : MissedReadings)
    (d : Description) (t : Transport) : Relay l where
  depth := depth
  missed := missed
  description := d
  source := source
  reader := .warming s.options.warmupBuffers
  session := s
  transport := t

/-- The reader reads, or hands an item over once there is room.  If the session has ended there is
no one to take the item, and the reader is done. -/
def moveReader (r : Relay l) : Option (Relay l) :=
  match r.reader.read r.missed r.source with
  | some (reader, source) => some { r with reader := reader, source := source }
  | none =>
    match r.reader.offer? with
    | none => none
    | some (item, next) =>
      match r.stage with
      | .ended _ => some { r with reader := .done }
      | _ =>
        if r.queue.length < max r.depth 1 then
          some { r with queue := r.queue ++ [item], reader := next }
        else none

variable [MetadataLoader l]

/-- The session takes an item and sends its batch.  It goes on to close the transport if it is over
its budget, or if nothing is left and the reader is done. -/
def receive (r : Relay l) : Option (Relay l) :=
  match r.queue, r.reader with
  | [], .done => some { r with stage := .closing .endOfStream }
  | [], _ => none
  | .error f :: queue, _ => some { r with queue := queue, stage := .ended (.error f) }
  | .ok (buffer, missed) :: queue, _ =>
    match r.session.sendBatch buffer missed r.transport with
    | (.error f, s, t) =>
      some { r with
        queue := queue, session := s, transport := t
        stage := .ended (.error (.within s!"sending batch {s.builder.batch}" f)) }
    | (.ok (), s, t) =>
      some { r with
        queue := queue, session := s, transport := t
        stage :=
          if kbytesExceeded s.stats.bytes s.options.kbytesLimit then .closing .byteLimit
          else .receiving }

def moveSession (r : Relay l) : Option (Relay l) :=
  match r.stage with
  | .opening =>
    match r.transport.send (.description r.description) with
    | (.error f, t) =>
      some { r with
        transport := t, stage := .ended (.error (.within "sending session description" f)) }
    | (.ok _, t) => some { r with transport := t, stage := .receiving }
  | .receiving => r.receive
  | .closing reason =>
    match r.transport.finish with
    | (.error f, t) =>
      some { r with transport := t, stage := .ended (.error (.within "closing transport" f)) }
    | (.ok (), t) => some { r with transport := t, stage := .ended (.ok reason) }
  | .ended _ => none

/-- One step of a party, unless it has to wait or is done. -/
def move (r : Relay l) : RelayParty → Option (Relay l)
  | .reader => r.moveReader
  | .session => r.moveSession

/-- Steps in the given order, each by a party that need not wait. -/
def follow : List RelayParty → Relay l → Option (Relay l)
  | [], r => some r
  | p :: ps, r => (r.move p).bind (follow ps)

end Relay

/-! ## What is to come -/

namespace ReaderState

/-- What the reader is still going to hand over. -/
def toCome (missed : MissedReadings) (source : BufferSource) :
    ReaderState → List (Except Failure (Buffer × UInt32))
  | warming n => batches n source missed
  | reading baseline next => withMissed baseline missed next source
  | handing item baseline next => .ok item :: withMissed baseline missed next source
  | reporting f => [.error f]
  | done => []

/-- Steps that are left at most, with so many items in the source.  For each of them there are three:
it is read, handed over and taken from the queue. -/
def left (items : Nat) : ReaderState → Nat
  | warming _ => 3 * items + 4
  | reading .. => 3 * items + 3
  | handing .. => 3 * items + 5
  | reporting _ => 2
  | done => 0

variable {missed : MissedReadings} {source source' : BufferSource} {reader reader' : ReaderState}

theorem read_eq_some (h : reader.read missed source = some (reader', source')) :
    reader'.toCome missed source' = reader.toCome missed source ∧
      reader'.left source'.length < reader.left source.length := by
  -- one case for each equation of `read`; only the two readings of the counter split again
  unfold read at h
  split at h
  · split at h
    all_goals
      next hbaseline =>
      cases h
      refine ⟨by simp only [toCome, batches, hbaseline], ?_⟩
      simp only [left]
      omega
  · cases h
    exact ⟨rfl, by simp only [left]; omega⟩
  · cases h
    exact ⟨rfl, by simp only [left, List.length_cons]; omega⟩
  · cases h
    exact ⟨rfl, by simp only [left, List.length_cons]; omega⟩
  · cases h
    exact ⟨rfl, by simp only [left]; omega⟩
  · cases h
    exact ⟨rfl, by simp only [left, List.length_cons]; omega⟩
  · split at h
    all_goals
      next hreading =>
      cases h
      refine ⟨by simp only [toCome, withMissed, hreading], ?_⟩
      simp only [left, List.length_cons]
      omega
  · cases h

theorem offer?_eq_some {item : Except Failure (Buffer × UInt32)}
    (h : reader.offer? = some (item, reader')) (missed : MissedReadings) (source : BufferSource) :
    reader.toCome missed source = item :: reader'.toCome missed source ∧
      reader'.left source.length + 1 < reader.left source.length := by
  cases reader <;> cases h
  · exact ⟨rfl, by simp only [left]; omega⟩
  · exact ⟨rfl, by simp only [left]; omega⟩

/-- A reader that is not done reads or has something to hand over. -/
theorem eq_done_of_none (hread : reader.read missed source = none) (hoffer : reader.offer? = none) :
    reader = done := by
  cases reader with
  | warming n =>
    cases n with
    | zero =>
      simp only [read] at hread
      split at hread <;> cases hread
    | succ n => rcases source with _ | ⟨_ | _, rest⟩ <;> cases hread
  | reading baseline next =>
    rcases source with _ | ⟨_ | _, rest⟩
    · cases hread
    · cases hread
    · simp only [read] at hread
      split at hread <;> cases hread
  | handing => cases hoffer
  | reporting => cases hoffer
  | done => rfl

end ReaderState

/-- Steps that are left at most, but for those that take something from the queue. -/
def SessionStage.left : SessionStage → Nat
  | opening => 3
  | receiving => 2
  | closing _ => 1
  | ended _ => 0

/-- What a session does after its batches. -/
def Session.finished {l : Type} :
    Except Failure StopReason × Session l × Transport →
      Except Failure StopReason × Session l × Transport
  | (.error f, s, t) => (.error f, s, t)
  | (.ok reason, s, t) =>
    match t.finish with
    | (.error f, t) => (.error (.within "closing transport" f), s, t)
    | (.ok (), t) => (.ok reason, s, t)

namespace Relay

variable {l : Type}

/-- What the session is still going to be handed. -/
def toCome (r : Relay l) : List (Except Failure (Buffer × UInt32)) :=
  r.queue ++ r.reader.toCome r.missed r.source

/-- Steps that are left at most. -/
def left (r : Relay l) : Nat := r.reader.left r.source.length + r.queue.length + r.stage.left

/-- A reader that is not done goes on if it has room. -/
theorem moveReader_isSome {r : Relay l} (hreader : r.reader ≠ .done)
    (hroom : r.queue.length < max r.depth 1) :
    r.moveReader.isSome := by
  cases hread : r.reader.read r.missed r.source with
  | some next => simp only [moveReader, hread, Option.isSome_some]
  | none =>
    cases hoffer : r.reader.offer? with
    | none => exact absurd (ReaderState.eq_done_of_none hread hoffer) hreader
    | some offered =>
      cases hstage : r.stage <;>
        simp only [moveReader, hread, hoffer, hstage, hroom, if_true, Option.isSome_some]

variable [MetadataLoader l]

/-- What comes of the session if it goes on with all that is to come. -/
def outcome (r : Relay l) : Except Failure StopReason × Session l × Transport :=
  match r.stage with
  | .opening =>
    match r.transport.send (.description r.description) with
    | (.error f, t) => (.error (.within "sending session description" f), r.session, t)
    | (.ok _, t) => Session.finished (Session.sendBatches .endOfStream r.toCome r.session t)
  | .receiving =>
    Session.finished (Session.sendBatches .endOfStream r.toCome r.session r.transport)
  | .closing reason => Session.finished (.ok reason, r.session, r.transport)
  | .ended result => (result, r.session, r.transport)

/-- At the beginning the outcome is that of the whole session. -/
theorem outcome_start (depth : Nat) (s : Session l) (source : BufferSource)
    (missed : MissedReadings) (d : Description) (t : Transport) :
    (start depth s source missed d t).outcome = s.run source missed d .endOfStream t := by
  simp only [outcome, start, toCome, ReaderState.toCome, List.nil_append, Session.run]
  rcases t.send (.description d) with ⟨_ | _, t₁⟩
  · rfl
  · rcases Session.sendBatches .endOfStream (batches s.options.warmupBuffers source missed) s t₁
      with ⟨_ | _, s₂, t₂⟩ <;> rfl

/-! ## Steps -/

variable {r r' : Relay l}

theorem moveReader_eq_some (h : r.moveReader = some r') :
    r'.outcome = r.outcome ∧ r'.left < r.left := by
  unfold moveReader at h
  split at h
  · next reader source hread =>
    cases h
    obtain ⟨htoCome, hleft⟩ := ReaderState.read_eq_some hread
    refine ⟨?_, ?_⟩
    · simp only [outcome, toCome, htoCome]
    · simp only [left]
      omega
  · split at h
    · cases h
    · next item next hoffer =>
      obtain ⟨htoCome, hleft⟩ := ReaderState.offer?_eq_some hoffer r.missed r.source
      split at h
      · next result hstage =>
        cases h
        have hdone : ReaderState.done.left r.source.length = 0 := rfl
        refine ⟨by simp only [outcome, hstage], ?_⟩
        simp only [left, hdone]
        omega
      · split at h <;> cases h
        refine ⟨?_, ?_⟩
        · simp only [outcome, toCome, htoCome, List.append_assoc, List.cons_append, List.nil_append]
        · simp only [left, List.length_append, List.length_singleton]
          omega

theorem receive_eq_some (hstage : r.stage = .receiving) (h : r.receive = some r') :
    r'.outcome = r.outcome ∧ r'.left < r.left := by
  unfold receive at h
  split at h
  · next hqueue hreader =>
    cases h
    refine ⟨?_, ?_⟩
    · simp only [outcome, hstage, toCome, hqueue, hreader, ReaderState.toCome, List.nil_append,
        Session.sendBatches]
    · simp only [left, hstage, SessionStage.left]
      omega
  · cases h
  · next f queue hqueue =>
    cases h
    refine ⟨?_, ?_⟩
    · simp only [outcome, hstage, toCome, hqueue, List.cons_append, Session.sendBatches,
        Session.finished]
    · simp only [left, hstage, hqueue, SessionStage.left, List.length_cons]
      omega
  · next buffer missed queue hqueue =>
    split at h <;> cases h
    · next hbatch =>
      refine ⟨?_, ?_⟩
      · simp only [outcome, hstage, toCome, hqueue, List.cons_append, Session.sendBatches, hbatch,
          Session.finished]
      · simp only [left, hstage, hqueue, SessionStage.left, List.length_cons]
        omega
    · next s t hbatch =>
      cases hexceeded : kbytesExceeded s.stats.bytes s.options.kbytesLimit with
      | true =>
        refine ⟨?_, ?_⟩
        · simp only [outcome, hstage, toCome, hqueue, List.cons_append, Session.sendBatches,
            hbatch, hexceeded, if_true]
        · simp only [left, hstage, hqueue, SessionStage.left, List.length_cons, if_true]
          omega
      | false =>
        refine ⟨?_, ?_⟩
        · simp only [outcome, hstage, toCome, hqueue, List.cons_append, Session.sendBatches,
            hbatch, hexceeded, Bool.false_eq_true, if_false]
        · simp only [left, hstage, hqueue, SessionStage.left, List.length_cons,
            Bool.false_eq_true, if_false]
          omega

theorem moveSession_eq_some (h : r.moveSession = some r') :
    r'.outcome = r.outcome ∧ r'.left < r.left := by
  unfold moveSession at h
  split at h
  · next hstage =>
    split at h <;> cases h
    all_goals
      next hsend =>
      refine ⟨by simp only [outcome, hstage, hsend, toCome], ?_⟩
      simp only [left, hstage, SessionStage.left]
      omega
  · next hstage => exact receive_eq_some hstage h
  · next reason hstage =>
    split at h <;> cases h
    all_goals
      next hfinish =>
      refine ⟨by simp only [outcome, hstage, Session.finished, hfinish], ?_⟩
      simp only [left, hstage, SessionStage.left]
      omega
  · cases h

/-- A session that has not ended goes on if it has something to take or nothing to wait for. -/
theorem moveSession_isSome (hended : ∀ result, r.stage ≠ .ended result)
    (hqueue : r.stage = .receiving → r.queue = [] → r.reader = .done) : r.moveSession.isSome := by
  cases hstage : r.stage with
  | ended result => exact absurd hstage (hended result)
  | opening =>
    rcases hsend : r.transport.send (.description r.description) with ⟨_ | _, t⟩ <;>
      simp only [moveSession, hstage, hsend, Option.isSome_some]
  | closing reason =>
    rcases hfinish : r.transport.finish with ⟨_ | _, t⟩ <;>
      simp only [moveSession, hstage, hfinish, Option.isSome_some]
  | receiving =>
    rcases hitems : r.queue with _ | ⟨f | ⟨buffer, missed⟩, queue⟩
    · simp only [moveSession, hstage, receive, hitems, hqueue hstage hitems, Option.isSome_some]
    · simp only [moveSession, hstage, receive, hitems, Option.isSome_some]
    · rcases hbatch : r.session.sendBatch buffer missed r.transport with ⟨_ | _, s, t⟩ <;>
        simp only [moveSession, hstage, receive, hitems, hbatch, Option.isSome_some]

/-- As long as the session has not ended, one of the parties need not wait: where the session waits
the queue is empty, so that the reader has room. -/
theorem exists_move (hended : ∀ result, r.stage ≠ .ended result) : ∃ p, (r.move p).isSome := by
  by_cases hwaits : r.queue = [] ∧ r.reader ≠ .done
  · have hroom : r.queue.length < max r.depth 1 := by
      rw [hwaits.1, List.length_nil]
      omega
    exact ⟨.reader, moveReader_isSome hwaits.2 hroom⟩
  · refine ⟨.session, moveSession_isSome hended fun _ hqueue => ?_⟩
    exact Classical.byContradiction fun hreader => hwaits ⟨hqueue, hreader⟩

/-- Steps in any order keep the outcome, and there are not many of them. -/
theorem follow_eq_some {turns : List RelayParty} (h : r.follow turns = some r') :
    r'.outcome = r.outcome ∧ turns.length + r'.left ≤ r.left := by
  induction turns generalizing r with
  | nil =>
    cases h
    exact ⟨rfl, by simp⟩
  | cons p turns ih =>
    obtain ⟨r₁, hmove, hrest⟩ := Option.bind_eq_some_iff.1 h
    obtain ⟨houtcome, hleft⟩ := ih hrest
    have hstep : r₁.outcome = r.outcome ∧ r₁.left < r.left := by
      cases p with
      | reader => exact moveReader_eq_some hmove
      | session => exact moveSession_eq_some hmove
    refine ⟨houtcome.trans hstep.1, ?_⟩
    rw [List.length_cons]
    omega

end Relay

/-! ## Whole sessions -/

namespace Session

variable {l : Type} [MetadataLoader l]

theorem run_hasSent {t : Transport} (ht : t.NeverRefuses) (cache : IdentityCache l)
    (options : SessionOptions) (d : Description) {source : BufferSource} {missed : MissedReadings}
    {items : List (Buffer × UInt32)} {failure : Option Failure}
    (hread : Readout options.warmupBuffers source missed items failure) :
    ∃ m ≤ items.length, ∃ result s t',
      (new cache options).run source missed d .endOfStream t = (result, s, t') ∧
      HasSent cache options d t (items.take m) s t' ∧
      (∀ k < m, ¬ OverBudget cache options (items.take k)) ∧
      (OverBudget cache options (items.take m) ∧ result = .ok .byteLimit ∨
        ¬ OverBudget cache options (items.take m) ∧ m = items.length ∧
          result = endOf .endOfStream failure) ∧
      ((∃ reason, result = .ok reason) → t'.Flushed) := by
  obtain ⟨t₁, hsend, h₁⟩ := hasSent_new ht cache options d
  obtain ⟨m, hm, result, s, t₂, hbatches, h₂, hbefore, hend⟩ :=
    h₁.sendBatches not_overBudget_nil .endOfStream items failure
  simp only [List.nil_append] at h₂ hbefore hend
  rw [← hread.batches_eq] at hbatches
  have hoptions : (new cache options).options.warmupBuffers = options.warmupBuffers := rfl
  cases result with
  | error f =>
    refine ⟨m, hm, .error f, s, t₂, ?_, h₂, hbefore, hend, nofun⟩
    simp only [run, hsend, hoptions, hbatches]
  | ok reason =>
    obtain ⟨t₃, hfinish, htook, hflushed⟩ := t₂.finish_took h₂.took.neverRefuses
    refine ⟨m, hm, .ok reason, s, t₃, ?_, ?_, hbefore, hend, fun _ => hflushed⟩
    · simp only [run, hsend, hoptions, hbatches, hfinish]
    · have hall := h₂.took.trans htook
      rw [List.append_nil] at hall
      exact ⟨h₂.options, h₂.encoder, h₂.stats, hall, fun _ => hflushed⟩

/-- **A session sends what it reads, and not much more than it may.**  Whatever a source holds,
however it ends and whatever the counter shows, over a transport that does not fail: the description
and the batches of the first buffers after the warm-up are sent, up to the end, to the failure, or to
the first batch that takes the session over its budget, and are counted.  Reader and session may
take turns in any order, with a queue of any depth: they are never stuck, they come to an end, and
the end is the same. -/
theorem sends_what_is_read {t : Transport} (ht : t.NeverRefuses) (cache : IdentityCache l)
    (options : SessionOptions) (source : BufferSource) (missed : MissedReadings)
    (d : Description) :
    (∃ items failure, Readout options.warmupBuffers source missed items failure) ∧
    ∀ items failure, Readout options.warmupBuffers source missed items failure →
      ∃ m ≤ items.length, ∃ result s t',
        (new cache options).run source missed d .endOfStream t = (result, s, t') ∧
        HasSent cache options d t (items.take m) s t' ∧
        t'.bytesSent = t.bytesSent + (Frame.description d).wire.length + s.stats.bytes ∧
        (∀ k < m, ¬ OverBudget cache options (items.take k)) ∧
        (OverBudget cache options (items.take m) ∧ result = .ok .byteLimit ∨
          ¬ OverBudget cache options (items.take m) ∧ m = items.length ∧
            result = endOf .endOfStream failure) ∧
        ((∃ reason, result = .ok reason) → t'.Flushed) ∧
        ∀ depth, ∃ steps, ∀ turns r,
          (Relay.start depth (new cache options) source missed d t).follow turns = some r →
            turns.length ≤ steps ∧
            ((∃ p, (r.move p).isSome) ∨ ∃ ending, r.stage = .ended ending) ∧
            ∀ ending, r.stage = .ended ending →
              (ending, r.session, r.transport) = (result, s, t') := by
  refine ⟨exists_readout .., fun items failure hread => ?_⟩
  obtain ⟨m, hm, result, s, t', hrun, hsent, hbefore, hend, hflushed⟩ :=
    run_hasSent ht cache options d hread
  refine ⟨m, hm, result, s, t', hrun, hsent, hsent.bytesSent, hbefore, hend, hflushed, ?_⟩
  intro depth
  refine ⟨(Relay.start depth (new cache options) source missed d t).left, fun turns r hturns => ?_⟩
  obtain ⟨houtcome, hleft⟩ := Relay.follow_eq_some hturns
  rw [Relay.outcome_start, hrun] at houtcome
  refine ⟨by omega, ?_, fun ending hending => ?_⟩
  · by_cases hended : ∃ ending, r.stage = .ended ending
    · exact .inr hended
    · exact .inl (Relay.exists_move fun ending h => hended ⟨ending, h⟩)
  · rw [← houtcome, Relay.outcome, hending]

/-- A source that fails after two buffers, the second with one sample of process 7 on core 1. -/
def failingSource : BufferSource :=
  [.ok Buffer.new, .ok ((Buffer.new.reset 1).push ⟨5, 7, Vector.replicate maxCounters 9⟩),
    .error (.cause "gone")]

/-- A counter that goes up by three from reading to reading. -/
def byThrees : MissedReadings := fun n => .ok (UInt32.ofNat (3 * n))

/-- One buffer is dropped and one sent, and the failure ends the session. -/
theorem sends_what_is_read_until_failure :
    ({} : Transport).NeverRefuses ∧
    ∃ sent s t',
      Readout 1 failingSource byThrees [(sent, 3)] (some (.cause "gone")) ∧
      (new (IdentityCache.new ({} : ProcessTable) "" 0) { warmupBuffers := 1 }).run
        failingSource byThrees ⟨"d"⟩ .endOfStream {} = (.error (.cause "gone"), s, t') ∧
      HasSent (IdentityCache.new ({} : ProcessTable) "" 0) { warmupBuffers := 1 } ⟨"d"⟩ {}
        [(sent, 3)] s t' ∧
      s.stats.buffers = 1 ∧ s.stats.missed = 3 := by
  have ht : ({} : Transport).NeverRefuses := ⟨fun _ _ => rfl, nofun⟩
  let sent : Buffer := (Buffer.new.reset 1).push ⟨5, 7, Vector.replicate maxCounters 9⟩
  have hread : Readout 1 failingSource byThrees [(sent, 3)] (some (.cause "gone")) := by
    refine .stamped [Buffer.new] rfl rfl rfl ?_ (.source (.cause "gone") [])
    intro i hi
    obtain rfl : i = 0 := Nat.lt_one_iff.1 hi
    exact ⟨3, rfl, rfl⟩
  obtain ⟨m, -, result, s, t', hrun, hsent, -, -, hend, -⟩ :=
    (sends_what_is_read ht (IdentityCache.new ({} : ProcessTable) "" 0) { warmupBuffers := 1 }
      failingSource byThrees ⟨"d"⟩).2 [(sent, 3)] (some (.cause "gone")) hread
  rcases hend with ⟨⟨hlimit, -⟩, -⟩ | ⟨-, rfl, rfl⟩
  · exact absurd hlimit (by decide)
  · exact ⟨ht, sent, s, t', hread, hrun, hsent, by rw [hsent.stats]; rfl, by rw [hsent.stats]; rfl⟩

end Session

end CounterTrace
