import CounterTrace.Packet.Wire

/-!
# Reading from the front

What is read from the front of a byte list does not depend on the bytes behind it.  Each part of a
packet is taken off the list that starts with it, whatever follows; hence a packet that is whole
stays what it is when more bytes come.

    takeText bs = some (text, rest) ↔ bs = text ++ 0 :: rest ∧ 0 ∉ text    (takeText_eq_some_iff)
    readPacket n bs = r → r ≠ incomplete → readPacket n (bs ++ more) = r   (readPacket_append)
-/

namespace CounterTrace

open Bytes

/-! ## Parts -/

theorem takeExactly_append {n : Nat} {front : List UInt8} (h : front.length = n)
    (rest : List UInt8) : takeExactly n (front ++ rest) = some (front, rest) := by
  subst h
  simp [takeExactly]

theorem takeText_append {text : List UInt8} (h : 0 ∉ text) (rest : List UInt8) :
    takeText (text ++ 0 :: rest) = some (text, rest) := by
  have hall : ∀ b ∈ text, (b != 0) = true := by
    intro b hb
    simp only [bne_iff_ne]
    rintro rfl
    exact h hb
  simp only [takeText, List.dropWhile_append_of_pos hall, List.takeWhile_append_of_pos hall]
  simp

theorem takeText_eq_some_iff {bs text rest : List UInt8} :
    takeText bs = some (text, rest) ↔ bs = text ++ 0 :: rest ∧ 0 ∉ text := by
  constructor
  · intro h
    refine ⟨takeText_eq_some h, fun hz => ?_⟩
    simp only [takeText] at h
    split at h
    · cases h
    · simp only [Option.some.injEq, Prod.mk.injEq] at h
      rw [← h.1] at hz
      have := List.all_eq_true.1 (List.all_takeWhile (p := (· != 0))) 0 hz
      simp at this
  · rintro ⟨rfl, h⟩
    exact takeText_append h rest

theorem takeText_eq_none_iff {bs : List UInt8} : takeText bs = none ↔ 0 ∉ bs := by
  constructor
  · intro h hz
    obtain ⟨text, rest, rfl, htext⟩ := List.eq_append_cons_of_mem hz
    rw [takeText_append htext] at h
    cases h
  · intro h
    cases ht : takeText bs with
    | none => rfl
    | some parts =>
      rw [takeText_eq_some ht] at h
      simp at h

/-- `ws` stands at the front of the words' bytes, whatever follows. -/
theorem takeWords_flatMap (ws : List UInt32) (rest : List UInt8) :
    takeWords takeBE32 ws.length (ws.flatMap be32 ++ rest) = some (ws, rest) :=
  takeWords_append takeBE32_append ws rest

/-! ## More bytes behind -/

theorem takeExactly_more {n : Nat} {bs front rest : List UInt8}
    (h : takeExactly n bs = some (front, rest)) (more : List UInt8) :
    takeExactly n (bs ++ more) = some (front, rest ++ more) := by
  obtain ⟨rfl, hn⟩ := takeExactly_eq_some h
  rw [List.append_assoc]
  exact takeExactly_append hn _

theorem takeText_more {bs text rest : List UInt8} (h : takeText bs = some (text, rest))
    (more : List UInt8) : takeText (bs ++ more) = some (text, rest ++ more) := by
  obtain ⟨rfl, hz⟩ := takeText_eq_some_iff.1 h
  rw [List.append_assoc, List.cons_append]
  exact takeText_append hz _

theorem takeBE32_more {bs rest : List UInt8} {w : UInt32} (h : takeBE32 bs = some (w, rest))
    (more : List UInt8) : takeBE32 (bs ++ more) = some (w, rest ++ more) := by
  match bs, h with
  | _ :: _ :: _ :: _ :: _, h =>
    simp only [takeBE32, Option.some.injEq, Prod.mk.injEq] at h
    simp [takeBE32, h]

theorem takeHeader_more {bs rest : List UInt8} {header : PacketHeader}
    (h : takeHeader bs = some (header, rest)) (more : List UInt8) :
    takeHeader (bs ++ more) = some (header, rest ++ more) := by
  match bs, h with
  | _ :: _ :: _ :: _ :: bs, h =>
    simp only [takeHeader, Option.bind_eq_bind, Option.bind_eq_some_iff, Prod.exists,
      Option.some.injEq, Prod.mk.injEq] at h
    obtain ⟨_, _, h1, _, _, h2, _, _, h3, _, _, h4, rfl, rfl⟩ := h
    simp only [List.cons_append, takeHeader, takeBE32_more h1, takeBE32_more h2, takeBE32_more h3,
      takeBE32_more h4, Option.bind_eq_bind, Option.bind_some]

theorem splitPacket_more {bs : List UInt8}
    {parts : PacketHeader × List UInt8 × List UInt8 × List UInt8}
    (h : splitPacket bs = some parts) (more : List UInt8) :
    splitPacket (bs ++ more) = some parts := by
  simp only [splitPacket, Option.bind_eq_bind, Option.bind_eq_some_iff, Prod.exists,
    Option.some.injEq] at h
  obtain ⟨_, _, h1, _, _, h2, _, _, h3, _, _, h4, rfl⟩ := h
  simp only [splitPacket, takeHeader_more h1, takeExactly_more h2, takeText_more h3,
    takeText_more h4, Option.bind_eq_bind, Option.bind_some]

/-- A packet that is whole stays what it is when more bytes come. -/
theorem readPacket_append {maxCores : Nat} {bs : List UInt8}
    (h : readPacket maxCores bs ≠ .incomplete) (more : List UInt8) :
    readPacket maxCores (bs ++ more) = readPacket maxCores bs := by
  unfold readPacket at h ⊢
  cases hs : splitPacket bs with
  | none => simp [hs] at h
  | some parts => rw [splitPacket_more hs more]

end CounterTrace
