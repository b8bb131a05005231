import CounterTrace.Proofs.Identity.Resolving

/-!
# Looks at processes

What a look-up comes to: there is nothing to do, or the process is looked at for the first time,
again after a failed load, or again because it looks like the template.  Looks are observed at the
loader, by one that writes down what it is asked.

    c.looks pid allow               the looks that one look-up leads to
    resolveAll calls c              the cache after a series of look-ups
    history calls c                 the looks that a series of look-ups leads to
    Outcome c pid allow …           the four things that a look-up can come to     (resolve_outcome)
-/

namespace CounterTrace

/-- A loader that writes down what it is asked and what it shows. -/
structure Watched (l : Type) where
  loader : l
  seen : List (UInt32 × Metadata)

instance {l : Type} [MetadataLoader l] : MetadataLoader (Watched l) where
  load w pid :=
    let (m, loader) := MetadataLoader.load w.loader pid
    (m, ⟨loader, w.seen ++ [(pid, m)]⟩)

/-- One look at a process: what was known of it, what was the lowest template, and what it
showed. -/
structure Look where
  pid : UInt32
  known : Option Identity
  earliest : Option UInt32
  shown : Metadata
  deriving DecidableEq, Repr

def looksAt (pid : UInt32) (past : List Look) : List Look := past.filter (·.pid == pid)

/-- Whether a look shows the name of the template. -/
def Metadata.names (m : Metadata) (template : String) : Bool :=
  programName m.cmdline == template.toList

/-! ## Settling -/

namespace Identity

variable {m : Metadata} (e : Identity) (template : String)

theorem classify_eq : e.classify template =
    { e with
      isTemplate := programName e.cmdline == template.toList
      templateChecks :=
        if programName e.cmdline == template.toList then e.templateChecks else 0 } := by
  unfold classify
  cases programName e.cmdline == template.toList <;> rfl

theorem settleLoad_of_complete (h : m.complete = true) : e.settleLoad m template =
    { e with
      cmdline := m.cmdline, executable := m.executable, loadFailed := false, loadChecks := 0
      isTemplate := m.names template
      templateChecks := if m.names template then e.templateChecks else 0 } := by
  simp [settleLoad, h, classify_eq, apply, Metadata.names]

theorem settleLoad_of_incomplete (h : m.complete = false) : e.settleLoad m template =
    { e with cmdline := m.cmdline, executable := m.executable, loadFailed := true } := by
  simp [settleLoad, h, apply]

theorem settleCheck_of_complete (h : m.complete = true) : e.settleCheck m template =
    { e with
      cmdline := m.cmdline, executable := m.executable
      isTemplate := m.names template
      templateChecks := if m.names template then e.templateChecks - 1 else 0 } := by
  simp [settleCheck, h, classify_eq, apply, Metadata.names]

theorem settleCheck_of_incomplete (h : m.complete = false) : e.settleCheck m template =
    { e with cmdline := m.cmdline, executable := m.executable, templateChecks := 0 } := by
  simp [settleCheck, h, apply]

@[simp]
theorem cmdline_settleLoad : (e.settleLoad m template).cmdline = m.cmdline := by
  cases hm : m.complete with
  | true => rw [settleLoad_of_complete e template hm]
  | false => rw [settleLoad_of_incomplete e template hm]

@[simp]
theorem executable_settleLoad : (e.settleLoad m template).executable = m.executable := by
  cases hm : m.complete with
  | true => rw [settleLoad_of_complete e template hm]
  | false => rw [settleLoad_of_incomplete e template hm]

@[simp]
theorem cmdline_settleCheck : (e.settleCheck m template).cmdline = m.cmdline := by
  cases hm : m.complete with
  | true => rw [settleCheck_of_complete e template hm]
  | false => rw [settleCheck_of_incomplete e template hm]

@[simp]
theorem executable_settleCheck : (e.settleCheck m template).executable = m.executable := by
  cases hm : m.complete with
  | true => rw [settleCheck_of_complete e template hm]
  | false => rw [settleCheck_of_incomplete e template hm]

/-- A look at the process is due: its load failed and may be tried again, or it looks like the
template and is newer than the lowest one, or has checks left. -/
def Due (e : Identity) (earliest : Option UInt32) : Prop :=
  (e.loadFailed = true ∧ 0 < e.loadChecks) ∨
    (e.isTemplate = true ∧ ((∃ p, earliest = some p ∧ p < e.pid) ∨ 0 < e.templateChecks))

variable {e} {earliest : Option UInt32}

theorem pending_eq_retry_iff :
    e.pending earliest = .retry ↔ e.loadFailed = true ∧ 0 < e.loadChecks := by
  unfold pending
  split
  · next h => simpa using h
  · next h =>
    split <;> simpa using h

theorem pending_eq_template_iff : e.pending earliest = .template ↔
    ¬(e.loadFailed = true ∧ 0 < e.loadChecks) ∧ e.isTemplate = true ∧
      ((∃ p, earliest = some p ∧ p < e.pid) ∨ 0 < e.templateChecks) := by
  unfold pending
  split
  · next h => simp_all
  · next h =>
    split
    · next h' => simp_all [Option.any_eq_true]
    · next h' => simp_all [Option.any_eq_true]

theorem pending_eq_none_iff : e.pending earliest = .none ↔ ¬e.Due earliest := by
  constructor
  · intro h hdue
    by_cases hretry : e.loadFailed = true ∧ 0 < e.loadChecks
    · rw [pending_eq_retry_iff.2 hretry] at h
      cases h
    · rcases hdue with hload | hcheck
      · exact hretry hload
      · rw [pending_eq_template_iff.2 ⟨hretry, hcheck⟩] at h
        cases h
  · intro h
    cases hp : e.pending earliest with
    | none => rfl
    | retry => exact absurd (.inl (pending_eq_retry_iff.1 hp)) h
    | template => exact absurd (.inr (pending_eq_template_iff.1 hp).2) h

end Identity

namespace IdentityCache

variable {l : Type}

/-- The cache over a loader that is watched from now on. -/
def watched (c : IdentityCache l) : IdentityCache (Watched l) :=
  ⟨⟨c.loader, []⟩, c.entries, c.earliestTemplate, c.templateName, c.checks, c.loads⟩

/-- The cache over the loader that is watched. -/
def unwatched (w : IdentityCache (Watched l)) : IdentityCache l :=
  ⟨w.loader.loader, w.entries, w.earliestTemplate, w.templateName, w.checks, w.loads⟩

/-- The lowest template after a full load. -/
def lowestAfter (earliest : Option UInt32) (e : Identity) (m : Metadata) : Option UInt32 :=
  if m.complete && e.isTemplate then some (lowest e.pid earliest) else earliest

@[simp]
theorem earliestTemplate_noteTemplate (c : IdentityCache l) (e : Identity) (m : Metadata) :
    (c.noteTemplate e m).earliestTemplate = lowestAfter c.earliestTemplate e m := by
  unfold noteTemplate lowestAfter
  split <;> rfl

@[simp]
theorem templateName_noteTemplate (c : IdentityCache l) (e : Identity) (m : Metadata) :
    (c.noteTemplate e m).templateName = c.templateName := by
  unfold noteTemplate
  split <;> rfl

@[simp]
theorem checks_noteTemplate (c : IdentityCache l) (e : Identity) (m : Metadata) :
    (c.noteTemplate e m).checks = c.checks := by
  unfold noteTemplate
  split <;> rfl

@[simp]
theorem loader_noteTemplate (c : IdentityCache l) (e : Identity) (m : Metadata) :
    (c.noteTemplate e m).loader = c.loader := by
  unfold noteTemplate
  split <;> rfl

@[simp]
theorem loader_settle (c : IdentityCache l) (e : Identity) (m : Metadata) :
    (c.settle e m).2.loader = c.loader :=
  loader_noteTemplate ..

theorem earliestTemplate_settle (c : IdentityCache l) (e : Identity) (m : Metadata) :
    (c.settle e m).2.earliestTemplate =
      lowestAfter c.earliestTemplate (e.settleLoad m c.templateName) m :=
  earliestTemplate_noteTemplate ..

/-- What a look-up can come to: from what was known of the process, what it showed, if it was looked
at, the entry that is given, and the lowest template afterwards. -/
inductive Outcome (c : IdentityCache l) (pid : UInt32) (allow : Bool) :
    Option Identity → Option Metadata → Identity → Option UInt32 → Prop where
  | known {e : Identity} (hdue : allow = true → ¬e.Due c.earliestTemplate) :
    Outcome c pid allow (some e) none e c.earliestTemplate
  | first {e : Identity} {m : Metadata}
    (he : e = (Identity.blank pid (Identity.modeOf m) c.checks).settleLoad m c.templateName) :
    Outcome c pid allow none (some m) e (lowestAfter c.earliestTemplate e m)
  | retry {e₀ e : Identity} {m : Metadata} (hallow : allow = true)
    (hfailed : e₀.loadFailed = true) (hleft : 0 < e₀.loadChecks)
    (he : e = { e₀ with loadChecks := e₀.loadChecks - 1 }.settleLoad m c.templateName) :
    Outcome c pid allow (some e₀) (some m) e (lowestAfter c.earliestTemplate e m)
  | check {e₀ e : Identity} {m : Metadata} (hallow : allow = true)
    (hsettled : ¬(e₀.loadFailed = true ∧ 0 < e₀.loadChecks)) (htemplate : e₀.isTemplate = true)
    (hdue : (∃ p, c.earliestTemplate = some p ∧ p < e₀.pid) ∨ 0 < e₀.templateChecks)
    (he : e = e₀.settleCheck m c.templateName) :
    Outcome c pid allow (some e₀) (some m) e c.earliestTemplate

/-- An entry takes over what a look shows. -/
theorem Outcome.shows {c : IdentityCache l} {pid : UInt32} {allow : Bool}
    {known : Option Identity} {m : Metadata} {e : Identity} {low : Option UInt32}
    (h : Outcome c pid allow known (some m) e low) :
    e.cmdline = m.cmdline ∧ e.executable = m.executable := by
  cases h with
  | first he => simp [he]
  | retry hallow hfailed hleft he => simp [he]
  | check hallow hsettled htemplate hdue he => simp [he]

variable [MetadataLoader l]

/-- The looks that a look-up leads to. -/
def looks (c : IdentityCache l) (pid : UInt32) (allow : Bool) : List Look :=
  (c.watched.resolve pid allow).2.loader.seen.map fun (pid, m) =>
    ⟨pid, c.get? pid, c.earliestTemplate, m⟩

@[simp]
theorem templateName_resolve (c : IdentityCache l) (pid : UInt32) (allow : Bool) :
    (c.resolve pid allow).2.templateName = c.templateName := by
  unfold resolve
  split
  · simp [settle, put, load]
  · split <;> simp [settle, put, load]

@[simp]
theorem checks_resolve (c : IdentityCache l) (pid : UInt32) (allow : Bool) :
    (c.resolve pid allow).2.checks = c.checks := by
  unfold resolve
  split
  · simp [settle, put, load]
  · split <;> simp [settle, put, load]

section
variable {c : IdentityCache l} {pid : UInt32} {allow : Bool}

theorem resolve_first (hget : c.get? pid = none) :
    c.resolve pid allow =
      (c.load pid).2.settle
        (Identity.blank pid (Identity.modeOf (c.load pid).1) c.checks) (c.load pid).1 := by
  simp only [resolve, hget]
  rfl

theorem resolve_retry {e : Identity} (hget : c.get? pid = some e) (hallow : allow = true)
    (hdue : e.pending c.earliestTemplate = .retry) :
    c.resolve pid allow =
      (c.load pid).2.settle { e with loadChecks := e.loadChecks - 1 } (c.load pid).1 := by
  simp only [resolve, hget, hallow, hdue, if_true]

theorem resolve_check {e : Identity} (hget : c.get? pid = some e) (hallow : allow = true)
    (hdue : e.pending c.earliestTemplate = .template) :
    c.resolve pid allow =
      (e.settleCheck (c.load pid).1 c.templateName,
        (c.load pid).2.put (e.settleCheck (c.load pid).1 c.templateName)) := by
  simp only [resolve, hget, hallow, hdue, if_true]
  rfl

theorem resolve_still {e : Identity} (hget : c.get? pid = some e)
    (hdue : allow = true → e.pending c.earliestTemplate = .none) :
    c.resolve pid allow = (e, c) := by
  cases allow with
  | false => exact resolve_known hget
  | true => simp only [resolve, hget, hdue rfl, if_true]

end

/-- A look-up that loads looks at its process once. -/
theorem looks_of_load {c : IdentityCache l} {pid : UInt32} {allow : Bool}
    (h : (c.watched.resolve pid allow).2.loader = (c.watched.load pid).2.loader) :
    c.looks pid allow = [⟨pid, c.get? pid, c.earliestTemplate, (c.load pid).1⟩] := by
  rw [looks, h]
  rfl

theorem looks_still {c : IdentityCache l} {pid : UInt32} {allow : Bool} {e : Identity}
    (hget : c.get? pid = some e) (hdue : allow = true → e.pending c.earliestTemplate = .none) :
    c.looks pid allow = [] := by
  have hw : c.watched.get? pid = some e := hget
  rw [looks, resolve_still hw hdue]
  rfl

/-- **What a look-up comes to.**  The loader is asked for the process once if it is looked at, and
not at all otherwise. -/
theorem resolve_outcome {c : IdentityCache l} (hc : c.Keyed) (pid : UInt32) (allow : Bool) :
    ∃ shown e low, Outcome c pid allow (c.get? pid) shown e low ∧
      c.looks pid allow = shown.toList.map (⟨pid, c.get? pid, c.earliestTemplate, ·⟩) ∧
      (c.resolve pid allow).1 = e ∧ (c.resolve pid allow).2.get? pid = some e ∧
      (c.resolve pid allow).2.earliestTemplate = low := by
  -- the entry that is given is the one that stands in the cache afterwards, so two facts are left
  suffices h : ∃ shown, Outcome c pid allow (c.get? pid) shown (c.resolve pid allow).1
        (c.resolve pid allow).2.earliestTemplate ∧
      c.looks pid allow = shown.toList.map (⟨pid, c.get? pid, c.earliestTemplate, ·⟩) by
    obtain ⟨shown, houtcome, hlooks⟩ := h
    exact ⟨shown, _, _, houtcome, hlooks, rfl, get?_resolve_self hc pid allow, rfl⟩
  cases hget : c.get? pid with
  | none =>
    have hw : c.watched.get? pid = none := hget
    refine ⟨some (c.load pid).1, ?_, ?_⟩
    · rw [resolve_first hget, earliestTemplate_settle]
      exact .first rfl
    · rw [looks_of_load (by rw [resolve_first hw, loader_settle]), hget]
      rfl
  | some e =>
    have hw : c.watched.get? pid = some e := hget
    by_cases hdue : allow = true → e.pending c.earliestTemplate = .none
    · refine ⟨none, ?_, looks_still hget hdue⟩
      rw [resolve_still hget hdue]
      exact .known fun h => Identity.pending_eq_none_iff.1 (hdue h)
    · obtain ⟨hallow, hdue⟩ := Classical.not_imp.1 hdue
      refine ⟨some (c.load pid).1, ?_⟩
      cases hp : e.pending c.earliestTemplate with
      | none => exact absurd hp hdue
      | retry =>
        obtain ⟨hfailed, hleft⟩ := Identity.pending_eq_retry_iff.1 hp
        refine ⟨?_, ?_⟩
        · rw [resolve_retry hget hallow hp, earliestTemplate_settle]
          exact .retry hallow hfailed hleft rfl
        · rw [looks_of_load (by rw [resolve_retry hw hallow hp, loader_settle]), hget]
          rfl
      | template =>
        obtain ⟨hsettled, htemplate, hchecks⟩ := Identity.pending_eq_template_iff.1 hp
        refine ⟨?_, ?_⟩
        · rw [resolve_check hget hallow hp]
          exact .check hallow hsettled htemplate hchecks rfl
        · rw [looks_of_load (by rw [resolve_check hw hallow hp]; rfl), hget]
          rfl

/-- The looks that a look-up leads to are at its process. -/
theorem pid_of_mem_looks {c : IdentityCache l} (hc : c.Keyed) {pid : UInt32} {allow : Bool}
    {look : Look} (h : look ∈ c.looks pid allow) : look.pid = pid := by
  obtain ⟨shown, -, -, -, hlooks, -⟩ := resolve_outcome hc pid allow
  rw [hlooks] at h
  obtain ⟨m, -, rfl⟩ := List.mem_map.1 h
  rfl

theorem looksAt_looks {c : IdentityCache l} (hc : c.Keyed) (q pid : UInt32) (allow : Bool) :
    looksAt q (c.looks pid allow) = if q = pid then c.looks pid allow else [] := by
  by_cases hq : q = pid
  · rw [if_pos hq]
    exact List.filter_eq_self.2 fun look hlook => by simp [pid_of_mem_looks hc hlook, hq]
  · rw [if_neg hq]
    exact List.filter_eq_nil_iff.2 fun look hlook => by simp [pid_of_mem_looks hc hlook, Ne.symm hq]

/-! ## Series of look-ups -/

/-- The cache after a series of look-ups, each with the permission to look at a known process. -/
def resolveAll : IdentityCache l → List (UInt32 × Bool) → IdentityCache l
  | c, [] => c
  | c, (pid, allow) :: calls => (c.resolve pid allow).2.resolveAll calls

/-- The looks that a series of look-ups leads to. -/
def history : IdentityCache l → List (UInt32 × Bool) → List Look
  | _, [] => []
  | c, (pid, allow) :: calls => c.looks pid allow ++ (c.resolve pid allow).2.history calls

theorem resolveAll_append (c : IdentityCache l) (before after : List (UInt32 × Bool)) :
    c.resolveAll (before ++ after) = (c.resolveAll before).resolveAll after := by
  induction before generalizing c with
  | nil => rfl
  | cons call before ih => exact ih _

theorem looksAt_append (pid : UInt32) (past later : List Look) :
    looksAt pid (past ++ later) = looksAt pid past ++ looksAt pid later :=
  List.filter_append ..

theorem history_append (c : IdentityCache l) (before after : List (UInt32 × Bool)) :
    c.history (before ++ after) = c.history before ++ (c.resolveAll before).history after := by
  induction before generalizing c with
  | nil => rfl
  | cons call before ih =>
    simp only [List.cons_append, history, resolveAll, ih, List.append_assoc]

/-- What every look-up keeps of a cache and the looks so far, a series of them keeps. -/
theorem history_induction {P : IdentityCache l → List Look → Prop}
    (hstep : ∀ c past pid allow, P c past →
      P (c.resolve pid allow).2 (past ++ c.looks pid allow))
    {c : IdentityCache l} {past : List Look} (h : P c past) (calls : List (UInt32 × Bool)) :
    P (c.resolveAll calls) (past ++ c.history calls) := by
  induction calls generalizing c past with
  | nil => simpa [resolveAll, history] using h
  | cons call calls ih =>
    have := ih (hstep c past call.1 call.2 h)
    rwa [List.append_assoc] at this

section
variable {c : IdentityCache l}

theorem Keyed.resolveAll (hc : c.Keyed) (calls : List (UInt32 × Bool)) :
    (c.resolveAll calls).Keyed := by
  induction calls generalizing c with
  | nil => exact hc
  | cons call calls ih => exact ih (hc.resolve call.1 call.2)

/-- Look-ups of other processes change nothing of a process. -/
theorem resolveAll_of_not_asked (hc : c.Keyed) {pid : UInt32} {calls : List (UInt32 × Bool)}
    (h : ∀ call ∈ calls, call.1 ≠ pid) :
    (c.resolveAll calls).get? pid = c.get? pid ∧ looksAt pid (c.history calls) = [] := by
  induction calls generalizing c with
  | nil => exact ⟨rfl, rfl⟩
  | cons call calls ih =>
    have hne := (h call List.mem_cons_self).symm
    obtain ⟨hget, hlooks⟩ := ih (hc.resolve call.1 call.2)
      fun other hother => h other (List.mem_cons_of_mem _ hother)
    refine ⟨hget.trans (get?_resolve_of_ne hc hne call.2), ?_⟩
    rw [history, looksAt_append, looksAt_looks hc, if_neg hne, hlooks]
    rfl

@[simp]
theorem templateName_resolveAll (c : IdentityCache l) (calls : List (UInt32 × Bool)) :
    (c.resolveAll calls).templateName = c.templateName := by
  induction calls generalizing c with
  | nil => rfl
  | cons call calls ih => rw [IdentityCache.resolveAll, ih, templateName_resolve]

@[simp]
theorem checks_resolveAll (c : IdentityCache l) (calls : List (UInt32 × Bool)) :
    (c.resolveAll calls).checks = c.checks := by
  induction calls generalizing c with
  | nil => rfl
  | cons call calls ih => rw [IdentityCache.resolveAll, ih, checks_resolve]

end

/-! ## Without permission -/

/-- What is unknown after a look-up is another process and was unknown before. -/
theorem unknown_of_resolve {c : IdentityCache l} (hc : c.Keyed) {pid q : UInt32} {allow : Bool}
    (h : (c.resolve q allow).2.get? pid = none) : pid ≠ q ∧ c.get? pid = none := by
  have hne : pid ≠ q := by
    intro heq
    rw [heq, get?_resolve_self hc] at h
    cases h
  rw [get?_resolve_of_ne hc hne] at h
  exact ⟨hne, h⟩

/-- One more look-up in front does not look at a process twice, if its process is not looked at
later. -/
theorem nodup_history_cons {c : IdentityCache l} (hc : c.Keyed) {q : UInt32} {allow : Bool}
    {calls : List (UInt32 × Bool)}
    (hnodup : (((c.resolve q allow).2.history calls).map (·.pid)).Nodup)
    (hother : ∀ look ∈ (c.resolve q allow).2.history calls, look.pid ≠ q) :
    ((c.history ((q, allow) :: calls)).map (·.pid)).Nodup := by
  obtain ⟨shown, e, low, -, hlooks, -, -, -⟩ := resolve_outcome hc q allow
  rw [history, hlooks]
  cases shown with
  | none => exact hnodup
  | some m =>
    refine List.nodup_cons.2 ⟨fun hmem => ?_, hnodup⟩
    obtain ⟨look, hlook, heq⟩ := List.mem_map.1 hmem
    exact hother look hlook heq

section
variable {c : IdentityCache l} (hc : c.Keyed) {calls : List (UInt32 × Bool)}
  (hcalls : ∀ call ∈ calls, call.2 = false)
include hc hcalls

/-- Without permission a known process keeps its entry. -/
theorem get?_resolveAll_known {pid : UInt32} {e : Identity} (hget : c.get? pid = some e) :
    (c.resolveAll calls).get? pid = some e := by
  induction calls generalizing c with
  | nil => exact hget
  | cons call calls ih =>
    obtain ⟨q, allow⟩ := call
    obtain rfl : allow = false := hcalls _ List.mem_cons_self
    -- the first look-up is of the process itself, which is known, or of another one
    refine ih (hc.resolve q false)
      (fun other hother => hcalls other (List.mem_cons_of_mem _ hother)) ?_
    by_cases hq : pid = q
    · subst hq
      rw [resolve_known hget]
      exact hget
    · rw [get?_resolve_of_ne hc hq, hget]

/-- Without permission only new processes are looked at, each of them once. -/
theorem history_without_permission :
    ((c.history calls).map (·.pid)).Nodup ∧ ∀ look ∈ c.history calls, c.get? look.pid = none := by
  induction calls generalizing c with
  | nil => exact ⟨List.nodup_nil, fun look hlook => by cases hlook⟩
  | cons call calls ih =>
    obtain ⟨q, allow⟩ := call
    obtain rfl : allow = false := hcalls _ List.mem_cons_self
    obtain ⟨hnodup, hunknown⟩ := ih (hc.resolve q false)
      fun other hother => hcalls other (List.mem_cons_of_mem _ hother)
    refine ⟨nodup_history_cons hc hnodup fun look hlook =>
      (unknown_of_resolve hc (hunknown look hlook)).1, fun look hlook => ?_⟩
    rcases List.mem_append.1 hlook with hlook | hlook
    · rw [pid_of_mem_looks hc hlook]
      cases hget : c.get? q with
      | none => rfl
      | some e =>
        rw [looks_still hget fun h => by cases h] at hlook
        cases hlook
    · exact (unknown_of_resolve hc (hunknown look hlook)).2

end

/-! ## Watching changes nothing -/

section
variable (w : IdentityCache (Watched l))

omit [MetadataLoader l] in
theorem settle_unwatched (e : Identity) (m : Metadata) :
    w.unwatched.settle e m = ((w.settle e m).1, (w.settle e m).2.unwatched) := by
  have hname : w.unwatched.templateName = w.templateName := rfl
  rw [settle, settle, noteTemplate, noteTemplate, hname]
  split <;> rfl

/-- A watched loader serves a look-up as the loader itself does, and writes down its looks. -/
theorem resolve_unwatched (pid : UInt32) (allow : Bool) :
    w.unwatched.resolve pid allow = ((w.resolve pid allow).1, (w.resolve pid allow).2.unwatched) ∧
      (w.resolve pid allow).2.loader.seen =
        w.loader.seen ++ (w.unwatched.looks pid allow).map fun look => (look.pid, look.shown) := by
  cases hget : w.get? pid with
  | none =>
    have hu : w.unwatched.get? pid = none := hget
    have huw : w.unwatched.watched.get? pid = none := hget
    rw [looks_of_load (by rw [resolve_first huw, loader_settle]), resolve_first hu,
      resolve_first hget, loader_settle]
    exact ⟨settle_unwatched (w.load pid).2 _ _, rfl⟩
  | some e =>
    have hu : w.unwatched.get? pid = some e := hget
    have huw : w.unwatched.watched.get? pid = some e := hget
    by_cases hdue : allow = true → e.pending w.earliestTemplate = .none
    · rw [looks_still hu hdue, resolve_still hu hdue, resolve_still hget hdue]
      exact ⟨rfl, (List.append_nil _).symm⟩
    · obtain ⟨hallow, hdue⟩ := Classical.not_imp.1 hdue
      cases hp : e.pending w.earliestTemplate with
      | none => exact absurd hp hdue
      | retry =>
        rw [looks_of_load (by rw [resolve_retry huw hallow hp, loader_settle]),
          resolve_retry hu hallow hp, resolve_retry hget hallow hp, loader_settle]
        exact ⟨settle_unwatched (w.load pid).2 _ _, rfl⟩
      | template =>
        rw [looks_of_load (by rw [resolve_check huw hallow hp]; rfl), resolve_check hu hallow hp,
          resolve_check hget hallow hp]
        exact ⟨rfl, rfl⟩

/-- A watched loader has seen what the history tells. -/
theorem seen_resolveAll (calls : List (UInt32 × Bool)) :
    (w.resolveAll calls).loader.seen =
      w.loader.seen ++ (w.unwatched.history calls).map fun look => (look.pid, look.shown) := by
  induction calls generalizing w with
  | nil => simp [resolveAll, history]
  | cons call calls ih =>
    obtain ⟨hsame, hseen⟩ := resolve_unwatched w call.1 call.2
    rw [resolveAll, ih, hseen, history, hsame, List.map_append, List.append_assoc]

end

end IdentityCache

end CounterTrace
