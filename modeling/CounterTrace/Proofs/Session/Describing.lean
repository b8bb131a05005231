import Mathlib.Data.List.Nodup
import CounterTrace.Frame.Decoder
import CounterTrace.Proofs.Packet.Reading
import CounterTrace.Proofs.Session.Fields
import CounterTrace.Proofs.Text.Utf8

/-!
# Descriptions that arrive

A description has seven fields, the period and six event selectors, and no others, whatever they are
looked up by.  Its text holds no NUL, so that it arrives as it was sent.

    (ofSettings period events).field? key = none, for any other key          (field?_eq_none)
    (feed (wire d ++ rest)).next = description d, and rest is left            (next_description)
-/

namespace CounterTrace

namespace Description

open Text

variable (period : UInt32) (events : List UInt32)

/-! ## Fields -/

/-- The keys of a capture. -/
def settingKeys : List String :=
  ["period", "event1", "event2", "event3", "event4", "event5", "event6"]

theorem map_fst_fieldsOf : (fieldsOf period events).map Prod.fst = settingKeys := rfl

/-- What is shown of a selector: nothing, if it is missing. -/
def shownSelector (selector : Option UInt32) : String :=
  selector.elim "" fun v => toString v.toNat

/-- Different fields have different keys, so that each of them is the first with its key. -/
theorem field?_of_mem {f : String × String} (hf : f ∈ fieldsOf period events) :
    (ofSettings period events).field? f.1 = some f.2 := by
  have hkeys : ((fieldsOf period events).map Prod.fst).Nodup := by
    rw [map_fst_fieldsOf]
    decide
  rw [ofSettings_eq, field?_lines (plain_fieldsOf period events)]
  cases hfind : (fieldsOf period events).find? (·.1 = f.1) with
  | none => simpa using List.find?_eq_none.1 hfind f hf
  | some g =>
    have hkey : g.1 = f.1 := by simpa using List.find?_some hfind
    have hg := List.mem_of_find?_eq_some hfind
    rw [List.inj_on_of_nodup_map hkeys hg hf hkey]
    rfl

theorem field?_eventKey {i : Nat} (hi : i < eventLines) :
    (ofSettings period events).field? (eventKey i) = some (shownSelector events[i]?) := by
  have hmem : (eventKey i, shownSelector events[i]?) ∈ fieldsOf period events :=
    List.mem_cons_of_mem _ (List.mem_map.2 ⟨i, List.mem_range.2 hi, rfl⟩)
  have hfield := field?_of_mem period events hmem
  exact hfield

theorem field?_eq_none {key : String} (hkey : key ∉ settingKeys) :
    (ofSettings period events).field? key = none := by
  rw [ofSettings_eq, field?_lines (plain_fieldsOf period events), List.find?_eq_none.2]
  · rfl
  · intro f hf
    rw [decide_eq_true_eq]
    rintro rfl
    exact hkey (map_fst_fieldsOf period events ▸ List.mem_map_of_mem hf)

/-- Only the first six selectors show. -/
theorem ofSettings_take : ofSettings period (events.take eventLines) = ofSettings period events := by
  have hselectors : ∀ i ∈ List.range eventLines, (events.take eventLines)[i]? = events[i]? :=
    fun i hi => List.getElem?_take_of_lt (List.mem_range.1 hi)
  have hlines := List.map_congr_left fun i hi =>
    congrArg (fun selector => fieldLine (eventKey i) (shownSelector selector)) (hselectors i hi)
  exact congrArg (fun lines => (⟨String.join (fieldLine "period" (toString period.toNat) :: lines)⟩ :
    Description)) hlines

/-! ## On the wire -/

/-- What is shown are decimal numerals. -/
theorem nul_not_mem_shownSelector (selector : Option UInt32) :
    '\x00' ∉ (shownSelector selector).toList := by
  cases selector with
  | none => exact List.not_mem_nil
  | some v => exact not_mem_toString rfl v.toNat

theorem nul_not_mem_fieldsOf : ∀ f ∈ fieldsOf period events,
    '\x00' ∉ f.1.toList ∧ '\x00' ∉ f.2.toList := by
  have hkeys : ∀ key ∈ settingKeys, '\x00' ∉ key.toList := by decide
  intro f hf
  refine ⟨hkeys f.1 (map_fst_fieldsOf period events ▸ List.mem_map_of_mem hf), ?_⟩
  rcases List.mem_cons.1 hf with rfl | hf
  · exact not_mem_toString rfl period.toNat
  · obtain ⟨i, -, rfl⟩ := List.mem_map.1 hf
    exact nul_not_mem_shownSelector events[i]?

theorem nul_not_mem_ofSettings : '\x00' ∉ (ofSettings period events).text.toList := by
  rw [ofSettings_eq, String.toList_join]
  intro hmem
  obtain ⟨text, htext, hmem⟩ := List.mem_flatMap.1 hmem
  obtain ⟨f, hf, rfl⟩ := List.mem_map.1 htext
  obtain ⟨hkey, hvalue⟩ := nul_not_mem_fieldsOf period events f hf
  simp [fieldLine, hkey, hvalue] at hmem

/-- A description without NULs is the first frame of its session and leaves what comes after it. -/
theorem next_description {d : Description} (hd : '\x00' ∉ d.text.toList) (maxCores : Nat)
    (rest : List UInt8) :
    ((FrameDecoder.ofSession maxCores).feed ((Frame.description d).wire ++ rest)).next =
      (.ok (some (.description d)),
        { FrameDecoder.ofSession maxCores with awaitsDescription := false, input := rest }) := by
  have hwire : (Frame.description d).wire ++ rest = Utf8.encode d.text ++ 0 :: rest := by
    rw [Frame.wire, wireText, Utf8.filter_encode, Utf8.withoutNul_of_not_mem hd, List.append_assoc,
      List.singleton_append]
  have htake := takeText_append (Utf8.zero_not_mem_encode hd) rest
  simp only [FrameDecoder.next, FrameDecoder.feed, FrameDecoder.ofSession, List.nil_append, hwire,
    htake, if_true, Utf8.decodeLenient_encode]

/-- **A description shows the settings.**  For every period and any number of selectors the
description, before and after it has travelled, shows under `period` the period in decimal, under
each of `event1` to `event6` the selector at this position in decimal, or nothing if there is none,
and under no other key anything.  Selectors past the sixth make no difference. -/
theorem shows_settings (maxCores : Nat) (rest : List UInt8) :
    ∃ arrived,
      ((FrameDecoder.ofSession maxCores).feed
          ((Frame.description (ofSettings period events)).wire ++ rest)).next =
        (.ok (some (.description arrived)),
          { FrameDecoder.ofSession maxCores with awaitsDescription := false, input := rest }) ∧
      (∀ d ∈ [ofSettings period events, arrived],
        d.field? "period" = some (toString period.toNat) ∧
        (∀ i < 6, d.field? (eventKey i) = some (shownSelector events[i]?)) ∧
        ∀ key, key ∉ ["period", "event1", "event2", "event3", "event4", "event5", "event6"] →
          d.field? key = none) ∧
      ofSettings period (events.take 6) = ofSettings period events := by
  have harrives := next_description (nul_not_mem_ofSettings period events) maxCores rest
  refine ⟨ofSettings period events, harrives, fun d hd => ?_, ofSettings_take period events⟩
  obtain rfl : d = ofSettings period events := by
    simpa using hd
  refine ⟨field?_period period events, fun i hi => ?_, fun key hkey => ?_⟩
  · exact field?_eventKey period events hi
  · exact field?_eq_none period events hkey

end Description

end CounterTrace
