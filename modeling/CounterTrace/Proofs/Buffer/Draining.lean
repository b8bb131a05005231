import CounterTrace.Pool
import CounterTrace.Proofs.Buffer.Image

/-!
# Draining a closed pool

A consumer empties a pool that is shut down in one of two ways: it takes the buffers themselves and
gives them back when it likes, or it asks for records until a read returns 0.

    p.drainRecord dst                    refused, and nothing changes, if `dst` is too short
    p.readToEnd dsts                     the records of `p.full`, `p` drained        (readToEnd_eq)
    (Consumer.new p).run moves           the buffers of `p.full`, all given back     (Took.all)

Both ways find the same samples of the same cores in the same order, and leave the pool with as many
free buffers as each other.
-/

namespace CounterTrace

/-! ## Records -/

namespace Pool

/-- Asks for a record with one destination after the other until a read returns 0.  Gives the bytes
that were read and the pool as it is then; `none` if the destinations run out, or a read blocks,
before that. -/
def readToEnd : List (List UInt8) → Pool → Option (List UInt8 × Pool)
  | [], _ => none
  | dst :: dsts, p =>
    match p.drainRecord dst with
    | (.written n, dst, p) =>
      if n = 0 then some ([], p)
      else (readToEnd dsts p).map fun (bytes, p) => (dst.take n ++ bytes, p)
    | (.refused _, _, p) => readToEnd dsts p
    | (.wouldBlock, _, _) => none

/-- Whether a record fits into a destination. -/
def Holds (dst : List UInt8) : Bool := recordSize ≤ dst.length

theorem holds_replicate (n : Nat) (byte : UInt8) :
    Holds (List.replicate n byte) = decide (recordSize ≤ n) := by
  rw [Holds, List.length_replicate]

section
variable {p : Pool} {dst : List UInt8} {b : Buffer} {rest : List Buffer}

theorem drainRecord_of_short (h : dst.length < recordSize) (p : Pool) :
    p.drainRecord dst = (.refused (.shortRead dst.length), dst, p) := by
  simp only [drainRecord, if_pos h]

theorem drainRecord_of_buffer (h : recordSize ≤ dst.length) (hfull : p.full = b :: rest) :
    p.drainRecord dst =
      (.written recordSize, b.recordImage ++ dst.drop recordSize,
        { p with full := rest }.release b) := by
  simp only [drainRecord, drain, tryDrain, Buffer.writeRecord, if_neg (Nat.not_lt.2 h), hfull]

theorem drainRecord_of_ended (h : recordSize ≤ dst.length) (hfull : p.full = [])
    (hclosed : p.shutdown = true) : p.drainRecord dst = (.written 0, dst, p) := by
  simp only [drainRecord, drain, tryDrain, if_neg (Nat.not_lt.2 h), hfull, hclosed, if_true]

theorem readToEnd_of_short (h : dst.length < recordSize) (dsts : List (List UInt8)) :
    p.readToEnd (dst :: dsts) = p.readToEnd dsts := by
  rw [readToEnd, drainRecord_of_short h]

theorem readToEnd_of_buffer (h : recordSize ≤ dst.length) (hfull : p.full = b :: rest)
    (dsts : List (List UInt8)) :
    p.readToEnd (dst :: dsts) = (({ p with full := rest }.release b).readToEnd dsts).map
      fun (bytes, p) => (b.recordImage ++ bytes, p) := by
  have hsize : recordSize ≠ 0 := by decide
  have hfront : (b.recordImage ++ dst.drop recordSize).take recordSize = b.recordImage :=
    List.take_left' b.length_recordImage
  simp only [readToEnd, drainRecord_of_buffer h hfull, hsize, if_false, hfront]

theorem readToEnd_of_ended (h : recordSize ≤ dst.length) (hfull : p.full = [])
    (hclosed : p.shutdown = true) (dsts : List (List UInt8)) :
    p.readToEnd (dst :: dsts) = some ([], p) := by
  simp only [readToEnd, drainRecord_of_ended h hfull hclosed, if_true]

theorem drainAll_of_ended (hfull : p.full = []) : p.drainAll.2 = p := by
  obtain ⟨capacity, free, full, shutdown⟩ := p
  subst hfull
  rfl

/-- Draining a buffer and giving it back comes before draining the others. -/
theorem drainAll_of_buffer (hfull : p.full = b :: rest) :
    p.drainAll.2 = ({ p with full := rest }.release b).drainAll.2 := by
  simp only [drainAll, hfull, List.foldl_cons]
  rfl

end

/-- Reads go on to the end if there are more destinations that hold a record than there are
buffers; in between, destinations that are too short make no difference. -/
theorem readToEnd_eq {p : Pool} (hclosed : p.shutdown = true) (dsts : List (List UInt8)) :
    p.readToEnd dsts =
      if p.full.length < dsts.countP Holds then
        some (p.full.flatMap Buffer.recordImage, p.drainAll.2)
      else none := by
  induction dsts generalizing p with
  | nil => rfl
  | cons dst dsts ih =>
    by_cases hshort : dst.length < recordSize
    · have hholds : ¬ Holds dst := by simpa [Holds] using hshort
      rw [readToEnd_of_short hshort, List.countP_cons_of_neg hholds]
      exact ih hclosed
    · have hlong := Nat.not_lt.1 hshort
      have hholds : Holds dst := by simpa [Holds] using hlong
      rw [List.countP_cons_of_pos hholds]
      cases hfull : p.full with
      | nil =>
        rw [readToEnd_of_ended hlong hfull hclosed, drainAll_of_ended hfull]
        simp
      | cons b rest =>
        have hrest := ih (p := { p with full := rest }.release b) hclosed
        rw [readToEnd_of_buffer hlong hfull, drainAll_of_buffer hfull]
        have hone : (b :: rest).length < dsts.countP Holds + 1 ↔ rest.length < dsts.countP Holds :=
          Nat.succ_lt_succ_iff
        by_cases henough : rest.length < dsts.countP Holds
        · rw [hrest.trans (if_pos henough), if_pos (hone.2 henough)]
          rfl
        · rw [hrest.trans (if_neg henough), if_neg (mt hone.1 henough)]
          rfl

theorem occupancy_drainAll (p : Pool) :
    p.drainAll.2.occupancy = ⟨p.capacity, p.free.length + p.full.length, 0⟩ := by
  generalize hfull : p.full = bs
  induction bs generalizing p with
  | nil => rw [drainAll_of_ended hfull, occupancy, hfull]; rfl
  | cons b rest ih =>
    rw [drainAll_of_buffer hfull, ih _ rfl]
    simp [release]
    omega

end Pool

/-! ## Buffers -/

/-- A consumer that takes buffers: the pool, the buffers that it has not given back, all those that
it ever took, and whether it was told the end. -/
structure Consumer where
  pool : Pool
  held : List Buffer := []
  taken : List Buffer := []
  ended : Bool := false

/-- What a consumer can do: ask for the next buffer, or give back the held buffer with number
`i`. -/
inductive ConsumerMove where
  | next
  | drop (i : Nat)

namespace Consumer

def new (p : Pool) : Consumer := { pool := p }

def step (c : Consumer) : ConsumerMove → Consumer
  | .next =>
    match c.pool.drain with
    | (.buffer b, pool) => { c with pool := pool, held := c.held ++ [b], taken := c.taken ++ [b] }
    | (.ended, pool) => { c with pool := pool, ended := true }
    | (.wouldBlock, pool) => { c with pool := pool }
  | .drop i =>
    match c.held[i]? with
    | some b => { c with pool := c.pool.release b, held := c.held.eraseIdx i }
    | none => c

def run (c : Consumer) (moves : List ConsumerMove) : Consumer := moves.foldl step c

/-- Where the buffers of a closed pool are when a consumer has taken some of them. -/
structure Took (p : Pool) (c : Consumer) : Prop where
  closed : c.pool.shutdown = true
  capacity : c.pool.capacity = p.capacity
  taken : c.taken ++ c.pool.full = p.full
  free : c.pool.free.length + c.held.length = p.free.length + c.taken.length
  ended : c.ended = true → c.pool.full = []

variable {p : Pool} {c : Consumer}

theorem Took.next (h : Took p c) : Took p (c.step .next) := by
  have htaken := h.taken
  have hfree := h.free
  cases hfull : c.pool.full with
  | nil =>
    have hstep : c.step .next = { c with ended := true } := by
      simp only [step, Pool.drain, Pool.tryDrain, hfull, h.closed, if_true]
    rw [hstep]
    exact { h with ended := fun _ => hfull }
  | cons b rest =>
    have hstep : c.step .next =
        { c with
          pool := { c.pool with full := rest }
          held := c.held ++ [b]
          taken := c.taken ++ [b] } := by
      simp only [step, Pool.drain, Pool.tryDrain, hfull]
    have hopen : c.ended = true → rest = [] := fun hended => by
      rw [h.ended hended] at hfull
      cases hfull
    rw [hfull] at htaken
    rw [hstep]
    refine ⟨h.closed, h.capacity, ?_, ?_, hopen⟩
    · rw [List.append_assoc]
      exact htaken
    · simp only [List.length_append, List.length_singleton]
      omega

theorem Took.drop (h : Took p c) (i : Nat) : Took p (c.step (.drop i)) := by
  have hfree := h.free
  simp only [step]
  split
  · next b hb =>
    obtain ⟨hi, -⟩ := List.getElem?_eq_some_iff.1 hb
    refine ⟨h.closed, h.capacity, h.taken, ?_, h.ended⟩
    simp only [Pool.release, List.length_append, List.length_singleton,
      List.length_eraseIdx_of_lt hi]
    omega
  · exact h

theorem Took.run (h : Took p c) (moves : List ConsumerMove) : Took p (c.run moves) := by
  induction moves generalizing c with
  | nil => exact h
  | cons move moves ih =>
    cases move with
    | next => exact ih h.next
    | drop i => exact ih (h.drop i)

theorem took_new (hclosed : p.shutdown = true) : Took p (new p) where
  closed := hclosed
  capacity := rfl
  taken := rfl
  free := rfl
  ended := nofun

/-- A consumer that was told the end has taken every buffer; once it holds none, all are free. -/
theorem Took.all (h : Took p c) (hended : c.ended = true) (hheld : c.held = []) :
    c.taken = p.full ∧ c.pool.occupancy = p.drainAll.2.occupancy := by
  have hfull := h.ended hended
  have htaken : c.taken = p.full := by
    have := h.taken
    rwa [hfull, List.append_nil] at this
  have hfree := h.free
  rw [hheld, htaken, List.length_nil, Nat.add_zero] at hfree
  exact ⟨htaken, by rw [Pool.occupancy_drainAll, Pool.occupancy, h.capacity, hfree, hfull]; rfl⟩

end Consumer

/-! ## Both ways -/

/-- **Two ways to drain.**  A closed pool is drained into destinations of which more hold a record
than there are buffers, whatever they contain and however many shorter ones there are between them,
and by a consumer that takes buffers until it is told the end and gives every one of them back, at
whatever time and in whatever order.  In whatever pieces the records are read back, they show the
cores and the samples of the buffers that the consumer took, in that order, and both leave as many
free and as many completed buffers.  A read into a destination that does not hold a record changes
neither the destination nor the pool, at whatever time. -/
theorem records_show_what_is_taken {p : Pool} (hclosed : p.shutdown = true)
    (dsts : List (List UInt8)) (hdsts : p.full.length < dsts.countP Pool.Holds)
    (moves : List ConsumerMove) (hended : ((Consumer.new p).run moves).ended = true)
    (hheld : ((Consumer.new p).run moves).held = []) :
    (∃ records left, p.readToEnd dsts = some (records, left) ∧
      (∀ pieces : List (List UInt8), pieces.flatten = records →
        (RecordReader.readAll ⟨pieces, none⟩).map (Except.map Buffer.contents) =
          ((Consumer.new p).run moves).taken.map fun b => .ok b.contents) ∧
      ((Consumer.new p).run moves).taken = p.full ∧
      left.occupancy = ((Consumer.new p).run moves).pool.occupancy) ∧
    ∀ (q : Pool) (dst : List UInt8), dst.length < recordSize →
      q.drainRecord dst = (.refused (.shortRead dst.length), dst, q) := by
  obtain ⟨htaken, hoccupancy⟩ := ((Consumer.took_new hclosed).run moves).all hended hheld
  have hread := Pool.readToEnd_eq hclosed dsts
  rw [if_pos hdsts] at hread
  refine ⟨⟨_, _, hread, fun pieces hpieces => ?_, htaken, hoccupancy.symm⟩,
    fun q _ hshort => Pool.drainRecord_of_short hshort q⟩
  rw [htaken]
  exact RecordReader.readAll_images p.full (r := ⟨pieces, none⟩) hpieces rfl

/-- A closed pool with two buffers of different cores, one sample between them, and a free one. -/
def twoBuffers : Pool where
  capacity := 3
  free := [Buffer.new]
  full := [(Buffer.new.reset 1).push ⟨50, 7, Vector.replicate maxCounters 9⟩, Buffer.new.reset 2]
  shutdown := true

/-- The first destination is too short, and the second buffer is given back before the first. -/
theorem records_show_two_buffers :
    (∃ records left, twoBuffers.readToEnd ([1, 2] :: List.replicate 3 (List.replicate 5000 255)) =
        some (records, left) ∧
      (∀ pieces : List (List UInt8), pieces.flatten = records →
        (RecordReader.readAll ⟨pieces, none⟩).map (Except.map Buffer.contents) =
          ((Consumer.new twoBuffers).run [.next, .next, .drop 1, .next, .drop 0]).taken.map
            fun b => .ok b.contents) ∧
      ((Consumer.new twoBuffers).run [.next, .next, .drop 1, .next, .drop 0]).taken =
        twoBuffers.full ∧
      left.occupancy =
        ((Consumer.new twoBuffers).run [.next, .next, .drop 1, .next, .drop 0]).pool.occupancy) ∧
    ∀ (q : Pool) (dst : List UInt8), dst.length < recordSize →
      q.drainRecord dst = (.refused (.shortRead dst.length), dst, q) :=
  records_show_what_is_taken rfl _
    (by
      rw [List.countP_cons, List.countP_replicate, Pool.holds_replicate]
      decide)
    _ rfl rfl

end CounterTrace
