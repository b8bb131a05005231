import CounterTrace.Identity.Cache

/-!
# Naming processes

What a cache knows after it has named a process.  Every entry stands under its own process, a
look-up changes the entry of its process alone, and without permission a known process is not looked
at again.

    c.Reachable                                             `c` has only been used to name processes
    (c.resolve pid allow).2.get? pid = (c.resolve pid allow).1               (get?_resolve_self)
    (c.resolve pid allow).2.get? q = c.get? q         for every other `q`    (get?_resolve_of_ne)
    c.get? pid = some e → c.resolve pid false = (e, c)                       (resolve_known)
-/

namespace CounterTrace

namespace Identity

@[simp]
theorem pid_classify (e : Identity) (template : String) : (e.classify template).pid = e.pid := by
  unfold classify
  split <;> rfl

@[simp]
theorem pid_settleLoad (e : Identity) (m : Metadata) (template : String) :
    (e.settleLoad m template).pid = e.pid := by
  unfold settleLoad
  split <;> simp [apply]

@[simp]
theorem pid_settleCheck (e : Identity) (m : Metadata) (template : String) :
    (e.settleCheck m template).pid = e.pid := by
  unfold settleCheck
  split <;> simp [apply]

end Identity

namespace IdentityCache

variable {l : Type}

@[simp]
theorem entries_noteTemplate (c : IdentityCache l) (e : Identity) (m : Metadata) :
    (c.noteTemplate e m).entries = c.entries := by
  unfold noteTemplate
  split <;> rfl

/-- Every entry stands under its own process. -/
def Keyed (c : IdentityCache l) : Prop := ∀ pid e, c.get? pid = some e → e.pid = pid

variable [MetadataLoader l]

/-- A cache that has been used for nothing but to name processes.  What a look at a process shows
may change at any time. -/
inductive Reachable : IdentityCache l → Prop where
  | new (loader : l) (templateName : String) (checks : Nat) :
    Reachable (.new loader templateName checks)
  | resolve {c : IdentityCache l} (h : Reachable c) (pid : UInt32) (allow : Bool) :
    Reachable (c.resolve pid allow).2
  | change {c : IdentityCache l} (h : Reachable c) (loader : l) :
    Reachable { c with loader := loader }

/-! ## One look-up -/

/-- A look-up either finds an entry with which there is nothing to do, or it puts an entry in the
place of the process. -/
theorem resolve_cases {c : IdentityCache l} (hc : c.Keyed) (pid : UInt32) (allow : Bool) :
    (c.get? pid = some (c.resolve pid allow).1 ∧ (c.resolve pid allow).2 = c) ∨
      ((c.resolve pid allow).1.pid = pid ∧
        (c.resolve pid allow).2.entries = c.entries.insert pid (c.resolve pid allow).1) := by
  cases hget : c.get? pid with
  | none =>
    right
    simp only [resolve, hget, settle, put, load, entries_noteTemplate, Identity.pid_settleLoad,
      Identity.blank]
    exact ⟨trivial, trivial⟩
  | some e =>
    have hpid := hc pid e hget
    cases hdue : (if allow then e.pending c.earliestTemplate else .none) with
    | none =>
      left
      simp only [resolve, hget, hdue]
      exact ⟨trivial, trivial⟩
    | retry =>
      right
      simp only [resolve, hget, hdue, settle, put, load, entries_noteTemplate,
        Identity.pid_settleLoad, hpid]
      exact ⟨trivial, trivial⟩
    | template =>
      right
      simp only [resolve, hget, hdue, put, load, Identity.pid_settleCheck, hpid]
      exact ⟨trivial, trivial⟩

section
variable {c : IdentityCache l} (hc : c.Keyed)
include hc

/-- After a look-up the process has the entry that was given. -/
theorem get?_resolve_self (pid : UInt32) (allow : Bool) :
    (c.resolve pid allow).2.get? pid = some (c.resolve pid allow).1 := by
  rcases resolve_cases hc pid allow with ⟨hget, hsame⟩ | ⟨-, hentries⟩
  · rw [hsame, hget]
  · rw [get?, hentries, Table.get?_insert, if_pos rfl]

/-- A look-up changes no entry but that of its process. -/
theorem get?_resolve_of_ne {pid q : UInt32} (hq : q ≠ pid) (allow : Bool) :
    (c.resolve pid allow).2.get? q = c.get? q := by
  rcases resolve_cases hc pid allow with ⟨-, hsame⟩ | ⟨-, hentries⟩
  · rw [hsame]
  · rw [get?, hentries, Table.get?_insert, if_neg hq, get?]

theorem Keyed.resolve (pid : UInt32) (allow : Bool) : (c.resolve pid allow).2.Keyed := by
  intro q e hget
  by_cases hq : q = pid
  · subst hq
    rw [get?_resolve_self hc, Option.some.injEq] at hget
    subst hget
    rcases resolve_cases hc q allow with ⟨hold, -⟩ | ⟨hpid, -⟩
    · exact hc q _ hold
    · exact hpid
  · rw [get?_resolve_of_ne hc hq] at hget
    exact hc q e hget

end

/-- Without permission a known process is not looked at again. -/
theorem resolve_known {c : IdentityCache l} {pid : UInt32} {e : Identity}
    (h : c.get? pid = some e) : c.resolve pid false = (e, c) := by
  simp only [resolve, h, Bool.false_eq_true, if_false]

theorem Reachable.keyed {c : IdentityCache l} (hc : c.Reachable) : c.Keyed := by
  induction hc with
  | new loader templateName checks =>
    intro pid e h
    cases h
  | resolve _ pid allow ih => exact Keyed.resolve ih pid allow
  | change _ loader ih => exact ih

end IdentityCache

end CounterTrace
