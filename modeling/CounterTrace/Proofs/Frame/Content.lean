import CounterTrace.Proofs.Frame.Skipping

/-!
# What a stream holds

Every byte string is a session stream as far as it goes: a description and packet images that are
whole, in order, and a tail in which nothing is whole.

    c.bytes = c.items.flatMap bytes ++ c.tail
    ∀ bs, ∃ c, c.bytes = bs                                            (StreamContent.exists_of)
    (ofSession n).run of c.bytes = (c.frames n, clean or truncated c.tail.length)  (run_content)

Of a stream that is cut at a byte, the items that end at or before it are left and no others
(`StreamContent.exists_cut`).
-/

namespace CounterTrace

open Bytes

/-! ## Images at the front -/

/-- Bytes of the length of a group are a group. -/
theorem exists_group {counters : Nat} {bs : List UInt8} (h : bs.length = groupSize counters) :
    ∃ g : { g : UInt32 × List UInt32 // g.2.length = counters }, groupBytes g = bs := by
  obtain ⟨ws, hws, hbytes⟩ := exists_items exists_be32 h
  obtain ⟨cycles, values, rfl⟩ : ∃ cycles values, ws = cycles :: values :=
    List.exists_cons_of_length_pos (by omega)
  have hvalues : values.length = counters := by
    rw [List.length_cons] at hws
    omega
  exact ⟨⟨(cycles, values), hvalues⟩, hbytes⟩

/-- Bytes of the length of some groups are groups. -/
theorem exists_groups {n counters : Nat} {bs : List UInt8}
    (h : bs.length = n * groupSize counters) :
    ∃ groups : List (UInt32 × List UInt32), groups.length = n ∧
      (∀ g ∈ groups, g.2.length = counters) ∧ groups.flatMap groupBytes = bs := by
  obtain ⟨groups, hn, hbytes⟩ := exists_items exists_group h
  refine ⟨groups.map Subtype.val, by rw [List.length_map, hn], fun g hg => ?_, ?_⟩
  · obtain ⟨g, -, rfl⟩ := List.mem_map.1 hg
    exact g.property
  · rw [List.flatMap_map, hbytes]

/-- A header that can be taken is the fields of twenty bytes. -/
theorem exists_of_takeHeader {bs rest : List UInt8} {header : PacketHeader}
    (h : takeHeader bs = some (header, rest)) :
    ∃ front : Vector UInt8 20, bs = front.toList ++ rest ∧ header = .ofBytes front := by
  have hlen := takeHeader_length h
  rw [packetHeaderSize] at hlen
  let front : Vector UInt8 20 := ⟨⟨bs.take 20⟩, by
    rw [List.size_toArray, List.length_take]
    omega⟩
  have hbs : bs = front.toList ++ bs.drop 20 := (List.take_append_drop 20 bs).symm
  rw [hbs, takeHeader_toList, Option.some.injEq, Prod.mk.injEq] at h
  exact ⟨front, by rw [← h.2]; exact hbs, h.1.symm⟩

/-- An image stands at the front of a byte list. -/
def BeginsWithImage (bs : List UInt8) : Prop :=
  ∃ (i : PacketImage) (rest : List UInt8), bs = i.bytes ++ rest

theorem BeginsWithImage.append {bs : List UInt8} (h : BeginsWithImage bs) (more : List UInt8) :
    BeginsWithImage (bs ++ more) := by
  obtain ⟨i, rest, rfl⟩ := h
  exact ⟨i, rest ++ more, List.append_assoc ..⟩

/-- The parts of a whole packet make an image. -/
theorem beginsWithImage_of_splitPacket {bs : List UInt8}
    {parts : PacketHeader × List UInt8 × List UInt8 × List UInt8}
    (h : splitPacket bs = some parts) : BeginsWithImage bs := by
  simp only [splitPacket, Option.bind_eq_bind, Option.bind_eq_some_iff, Prod.exists] at h
  obtain ⟨header, afterHeader, h1, body, afterBody, h2, cmdline, afterCmdline, h3,
    executable, rest, h4, -⟩ := h
  obtain ⟨front, rfl, rfl⟩ := exists_of_takeHeader h1
  obtain ⟨rfl, hbody⟩ := takeExactly_eq_some h2
  obtain ⟨rfl, hcmdline⟩ := takeText_eq_some_iff.1 h3
  obtain ⟨rfl, hexecutable⟩ := takeText_eq_some_iff.1 h4
  obtain ⟨groups, hquantity, hcounters, rfl⟩ := exists_groups hbody
  refine ⟨⟨front, groups, cmdline, executable, hquantity, hcounters, hcmdline, hexecutable⟩,
    rest, ?_⟩
  simp only [PacketImage.bytes, List.append_assoc, List.cons_append, List.nil_append]

/-- Only in front of an image is there something to read. -/
theorem readPacket_eq_incomplete_iff {maxCores : Nat} {bs : List UInt8} :
    readPacket maxCores bs = .incomplete ↔ ¬ BeginsWithImage bs := by
  constructor
  · rintro h ⟨i, rest, rfl⟩
    rw [i.readPacket_image] at h
    split at h <;> cases h
  · intro h
    cases hs : splitPacket bs with
    | none => simp only [readPacket, hs]
    | some parts => exact absurd (beginsWithImage_of_splitPacket hs) h

namespace PacketImage

/-- Images at the front of one byte list have one length. -/
theorem length_eq_of_append {i i' : PacketImage} {rest rest' : List UInt8}
    (h : i.bytes ++ rest = i'.bytes ++ rest') : i.bytes.length = i'.bytes.length := by
  have hread := i.readPacket_image 0 rest
  rw [h, i'.readPacket_image] at hread
  split at hread <;> split at hread <;> simp_all

/-- A part of an image does not begin with an image. -/
theorem not_beginsWithImage_take (i : PacketImage) {k : Nat} (hk : k < i.bytes.length) :
    ¬ BeginsWithImage (i.bytes.take k) := by
  rintro ⟨i', rest, h⟩
  have hlen := congrArg List.length h
  rw [List.length_take, List.length_append] at hlen
  have hwhole : i'.bytes ++ (rest ++ i.bytes.drop k) = i.bytes ++ [] := by
    rw [← List.append_assoc, ← h, List.take_append_drop, List.append_nil]
  have := length_eq_of_append hwhole
  omega

end PacketImage

/-- Every byte list is images and a tail that begins with none. -/
theorem exists_images (bs : List UInt8) :
    ∃ (images : List PacketImage) (tail : List UInt8),
      bs = images.flatMap PacketImage.bytes ++ tail ∧ ¬ BeginsWithImage tail := by
  induction hlen : bs.length using Nat.strongRecOn generalizing bs with
  | ind len ih =>
    subst hlen
    by_cases h : BeginsWithImage bs
    · obtain ⟨i, rest, rfl⟩ := h
      obtain ⟨images, tail, rfl, htail⟩ := ih rest.length (by
        rw [List.length_append, i.length_bytes]
        omega) rest rfl
      exact ⟨i :: images, tail, by rw [List.flatMap_cons, List.append_assoc], htail⟩
    · exact ⟨[], bs, rfl, h⟩

/-- Of images that are cut at a byte, those that end at or before it are left. -/
theorem exists_cut_images (images : List PacketImage) {tail : List UInt8}
    (htail : ¬ BeginsWithImage tail) (k : Nat) :
    ∃ m left, m ≤ images.length ∧ ¬ BeginsWithImage left ∧
      (images.flatMap PacketImage.bytes ++ tail).take k =
        (images.take m).flatMap PacketImage.bytes ++ left ∧
      ∀ n ≤ images.length, n ≤ m ↔ ((images.take n).flatMap PacketImage.bytes).length ≤ k := by
  induction images generalizing k with
  | nil =>
    refine ⟨0, tail.take k, Nat.le_refl 0, fun h => htail ?_, rfl, fun n hn => by simp_all⟩
    rw [← List.take_append_drop k tail]
    exact h.append _
  | cons i images ih =>
    by_cases hk : i.bytes.length ≤ k
    · -- the cut is behind the first image
      obtain ⟨m, left, hm, hleft, hcut, hends⟩ := ih (k - i.bytes.length)
      refine ⟨m + 1, left, Nat.succ_le_succ hm, hleft, ?_, ?_⟩
      · rw [List.flatMap_cons, List.append_assoc, List.take_append, List.take_of_length_le hk, hcut,
          List.take_succ_cons, List.flatMap_cons, List.append_assoc]
      · intro n hn
        cases n with
        | zero => simp
        | succ n =>
          have := hends n (Nat.le_of_succ_le_succ hn)
          rw [List.take_succ_cons, List.flatMap_cons, List.length_append]
          omega
    · -- the cut is inside the first image, so nothing is whole in front of it
      have hpart : ((i :: images).flatMap PacketImage.bytes ++ tail).take k = i.bytes.take k := by
        rw [List.flatMap_cons, List.append_assoc, List.take_append_of_le_length (by omega)]
      refine ⟨0, i.bytes.take k, Nat.zero_le _, i.not_beginsWithImage_take (by omega), hpart, ?_⟩
      intro n hn
      cases n with
      | zero => simp
      | succ n =>
        rw [List.take_succ_cons, List.flatMap_cons, List.length_append]
        omega

/-! ## Contents -/

/-- Something whole in a stream. -/
inductive StreamItem where
  | description (text : List UInt8)
  | packet (i : PacketImage)

namespace StreamItem

def bytes : StreamItem → List UInt8
  | description text => text ++ [0]
  | packet i => i.bytes

def image? : StreamItem → Option PacketImage
  | description _ => none
  | packet i => some i

/-- The frame that an item is decoded to.  An image that cannot be used gives none. -/
def frame? (maxCores : Nat) : StreamItem → Option Frame
  | description text => some (.description ⟨Utf8.decodeLenient text⟩)
  | packet i => if i.Usable maxCores then some (.packet i.packet) else none

end StreamItem

/-- A stream as far as it goes. -/
inductive StreamContent where
  /-- Not even the description is whole. -/
  | opening (bytes : List UInt8) (nul : 0 ∉ bytes)
  | session (text : List UInt8) (images : List PacketImage) (tail : List UInt8)
      (text_nul : 0 ∉ text) (tail_image : ¬ BeginsWithImage tail)

namespace StreamContent

/-- The items that are whole, in their order. -/
def items : StreamContent → List StreamItem
  | opening .. => []
  | session text images .. => .description text :: images.map .packet

/-- The bytes behind the last whole item. -/
def tail : StreamContent → List UInt8
  | opening bytes _ => bytes
  | session _ _ tail .. => tail

def bytes (c : StreamContent) : List UInt8 := c.items.flatMap StreamItem.bytes ++ c.tail

/-- The packets that are whole, usable or not. -/
def images (c : StreamContent) : List PacketImage := c.items.filterMap StreamItem.image?

def frames (c : StreamContent) (maxCores : Nat) : List Frame :=
  c.items.filterMap (·.frame? maxCores)

def packets (c : StreamContent) (maxCores : Nat) : List Packet :=
  (c.images.filter (·.Usable maxCores)).map PacketImage.packet

theorem flatMap_bytes_packets (images : List PacketImage) :
    (images.map StreamItem.packet).flatMap StreamItem.bytes = images.flatMap PacketImage.bytes :=
  List.flatMap_map ..

theorem filterMap_frame?_packets (maxCores : Nat) (images : List PacketImage) :
    (images.map StreamItem.packet).filterMap (·.frame? maxCores) =
      (images.filter (·.Usable maxCores)).map (.packet ·.packet) := by
  induction images with
  | nil => rfl
  | cons i images ih =>
    rw [List.map_cons, List.filterMap_cons, ih]
    by_cases hi : i.Usable maxCores
    · simp only [StreamItem.frame?, hi, if_true, List.filter_cons, decide_true, List.map_cons]
    · simp only [StreamItem.frame?, hi, if_false, List.filter_cons, decide_false,
        Bool.false_eq_true]

theorem bytes_session (text : List UInt8) (images : List PacketImage) (tail : List UInt8)
    (htext : 0 ∉ text) (htail : ¬ BeginsWithImage tail) :
    (session text images tail htext htail).bytes =
      text ++ 0 :: (images.flatMap PacketImage.bytes ++ tail) := by
  simp only [bytes, items, StreamContent.tail, List.flatMap_cons, flatMap_bytes_packets,
    StreamItem.bytes, List.append_assoc, List.cons_append, List.nil_append]

theorem images_session (text : List UInt8) (images : List PacketImage) (tail : List UInt8)
    (htext : 0 ∉ text) (htail : ¬ BeginsWithImage tail) :
    (session text images tail htext htail).images = images := by
  simp only [StreamContent.images, items, List.filterMap_cons, StreamItem.image?,
    List.filterMap_map]
  exact List.filterMap_some

theorem frames_session (maxCores : Nat) (text : List UInt8) (images : List PacketImage)
    (tail : List UInt8) (htext : 0 ∉ text) (htail : ¬ BeginsWithImage tail) :
    (session text images tail htext htail).frames maxCores =
      .description ⟨Utf8.decodeLenient text⟩ ::
        (images.filter (·.Usable maxCores)).map (.packet ·.packet) := by
  rw [frames, items, List.filterMap_cons, filterMap_frame?_packets]
  rfl

theorem exists_of (bs : List UInt8) : ∃ c : StreamContent, c.bytes = bs := by
  cases ht : takeText bs with
  | none => exact ⟨opening bs (takeText_eq_none_iff.1 ht), rfl⟩
  | some parts =>
    obtain ⟨text, rest⟩ := parts
    obtain ⟨rfl, htext⟩ := takeText_eq_some_iff.1 ht
    obtain ⟨images, tail, rfl, htail⟩ := exists_images rest
    exact ⟨session text images tail htext htail, bytes_session ..⟩

/-- Of a stream that is cut at a byte, the items that end at or before it are left, and nothing else
is whole. -/
theorem exists_cut (c : StreamContent) (k : Nat) :
    ∃ left : StreamContent, left.bytes = c.bytes.take k ∧
      ∃ m ≤ c.items.length, left.items = c.items.take m ∧
        ∀ n ≤ c.items.length,
          n ≤ m ↔ ((c.items.take n).flatMap StreamItem.bytes).length ≤ k := by
  cases c with
  | opening bs h =>
    refine ⟨opening (bs.take k) fun hz => h (List.mem_of_mem_take hz), rfl, 0, Nat.le_refl 0, rfl,
      fun n hn => ?_⟩
    obtain rfl : n = 0 := Nat.le_zero.1 hn
    simp
  | session text images tail htext htail =>
    rw [bytes_session]
    by_cases hk : text.length + 1 ≤ k
    · obtain ⟨m, left, hm, hleft, hcut, hends⟩ :=
        exists_cut_images images htail (k - (text.length + 1))
      refine ⟨session text (images.take m) left htext hleft, ?_, m + 1, ?_, ?_, ?_⟩
      · have htake : (text ++ 0 :: (images.flatMap PacketImage.bytes ++ tail)).take k =
            text ++ 0 :: (images.flatMap PacketImage.bytes ++ tail).take (k - (text.length + 1)) := by
          rw [List.take_append, List.take_of_length_le (by omega),
            show k - text.length = k - (text.length + 1) + 1 by omega, List.take_succ_cons]
        rw [bytes_session, htake, hcut]
      · simp only [items, List.length_cons, List.length_map]
        omega
      · simp only [items, List.take_succ_cons, List.map_take]
      · intro n hn
        cases n with
        | zero => simp
        | succ n =>
          simp only [items, List.length_cons, List.length_map] at hn
          have := hends n (by omega)
          simp only [items, List.take_succ_cons, List.flatMap_cons, ← List.map_take,
            flatMap_bytes_packets, List.length_append, StreamItem.bytes, List.length_cons,
            List.length_nil]
          omega
    · have hpart : (text ++ 0 :: (images.flatMap PacketImage.bytes ++ tail)).take k =
          text.take k := List.take_append_of_le_length (by omega)
      refine ⟨opening (text.take k) fun hz => htext (List.mem_of_mem_take hz), hpart.symm, 0,
        Nat.zero_le _, rfl, ?_⟩
      intro n hn
      cases n with
      | zero => simp
      | succ n =>
        simp only [items, List.take_succ_cons, List.flatMap_cons, List.length_append,
          StreamItem.bytes, List.length_cons, List.length_nil]
        omega

end StreamContent

/-! ## Decoding -/

/-- A stream is decoded to its usable frames.  Its other packets are counted under their faults, and
its tail is left over. -/
theorem FrameDecoder.run_content (maxCores : Nat) (c : StreamContent) {pieces : List (List UInt8)}
    (hpieces : pieces.flatten = c.bytes) :
    ∃ left : FrameDecoder,
      (ofSession maxCores).run ⟨pieces, none⟩ =
        (c.frames maxCores, if c.tail = [] then .clean else .truncated c.tail.length, left) ∧
      left.input = c.tail ∧
      left.dropped = FaultCounts.countAll {} (c.images.filterMap (·.fields.fault? maxCores)) := by
  cases c with
  | opening bs h =>
    have hnext : next ((ofSession maxCores).feed pieces.flatten) =
        (.ok none, (ofSession maxCores).feed bs) := by
      simp only [hpieces, next, feed, ofSession, StreamContent.bytes, StreamContent.items,
        StreamContent.tail, List.flatMap_nil, List.nil_append, takeText_eq_none_iff.2 h, if_true]
    rw [run_eq_drain (idle_ofSession maxCores), drain_of_none hnext]
    exact ⟨_, rfl, rfl, rfl⟩
  | session text images tail htext htail =>
    rw [StreamContent.bytes_session] at hpieces
    rw [run_session maxCores htext images (readPacket_eq_incomplete_iff.2 htail) hpieces,
      StreamContent.frames_session, StreamContent.images_session]
    exact ⟨_, rfl, rfl, rfl⟩

end CounterTrace
