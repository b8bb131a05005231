import CounterTrace.Identity.ProcessTable
import CounterTrace.Proofs.Identity.Policy

/-!
# The flags of an entry

An entry has the texts of the last look at its process, and two flags: whether its load failed, and
whether it is a template.  A full load sets both flags by what it shows, and so does a check of a
template that can read the process.  A check that cannot takes over its texts all the same, and
leaves the flags of the look before it.

    e.Describes template m      the flags of `e` are those of a look that shows `m`
    e.Reflects template look    what the last look leaves of texts and flags     (Outcome.reflects)
    c.Reflecting past           … for all entries of `c`                       (Reflecting.resolve)
    e.Describes … ↔ the last look was a full load, or was complete       (describes_iff_full_or_read)
-/

namespace CounterTrace

namespace Identity

/-- The flags of an entry say what a look showed: that it failed, or else whether its command line
begins with the name of the template. -/
structure Describes (template : String) (m : Metadata) (e : Identity) : Prop where
  loadFailed : e.loadFailed = true ↔ m.complete = false
  isTemplate : e.isTemplate = true ↔
    m.complete = true ∧ programName e.cmdline = template.toList

/-- What the last look at a process leaves in its entry. -/
structure Reflects (template : String) (look : Look) (e : Identity) : Prop where
  cmdline : e.cmdline = look.shown.cmdline
  executable : e.executable = look.shown.executable
  loadFailed : e.loadFailed = (look.isFull && !look.shown.complete)
  isTemplate : e.isTemplate =
    if look.shown.complete then look.shown.names template else !look.isFull
  templateChecks : look.isFull = false → look.shown.complete = false → e.templateChecks = 0

namespace Reflects

variable {template : String} {look : Look} {e : Identity}

/-- An entry whose load failed is no template. -/
theorem isTemplate_of_loadFailed (h : e.Reflects template look) (hf : e.loadFailed = true) :
    e.isTemplate = false := by
  have hlook := h.loadFailed
  rw [hf, eq_comm, Bool.and_eq_true, Bool.not_eq_true'] at hlook
  rw [h.isTemplate, hlook.2, hlook.1]
  rfl

/-- The flags of an entry say what the last look showed, unless that was a check that failed. -/
theorem describes_iff (h : e.Reflects template look) :
    e.Describes template look.shown ↔ look.isFull = true ∨ look.shown.complete = true := by
  have hname : look.shown.names template = true ↔ programName e.cmdline = template.toList := by
    rw [h.cmdline, Metadata.names, beq_iff_eq]
  cases hm : look.shown.complete with
  | true =>
    refine ⟨fun _ => .inr rfl, fun _ => ⟨?_, ?_⟩⟩
    · simp [h.loadFailed, hm]
    · simp [h.isTemplate, hm, hname]
  | false =>
    cases hfull : look.isFull with
    | true =>
      refine ⟨fun _ => .inl rfl, fun _ => ⟨?_, ?_⟩⟩
      · simp [h.loadFailed, hm, hfull]
      · simp [h.isTemplate, hm, hfull]
    | false =>
      refine ⟨fun hdescribes => ?_, fun hor => by simp at hor⟩
      have hfailed := hdescribes.loadFailed.2 hm
      rw [h.loadFailed, hfull] at hfailed
      cases hfailed

/-- After a check that failed, the flags are those of a template that was read. -/
theorem stale (h : e.Reflects template look) (hfull : look.isFull = false)
    (hm : look.shown.complete = false) :
    e.loadFailed = false ∧ e.isTemplate = true ∧ e.templateChecks = 0 := by
  refine ⟨?_, ?_, h.templateChecks hfull hm⟩
  · simp [h.loadFailed, hfull]
  · simp [h.isTemplate, hm, hfull]

end Reflects

/-- A full load of a process that is no template. -/
theorem reflects_settleLoad (look : Look) {e : Identity} (template : String)
    (hfull : look.isFull = true) (htemplate : e.isTemplate = false) :
    (e.settleLoad look.shown template).Reflects template look := by
  cases hm : look.shown.complete with
  | true =>
    rw [settleLoad_of_complete e template hm]
    exact ⟨rfl, rfl, by simp [hm], by simp [hm], by simp [hm]⟩
  | false =>
    rw [settleLoad_of_incomplete e template hm]
    exact ⟨rfl, rfl, by simp [hm, hfull], by simp [hm, hfull, htemplate], by simp [hfull]⟩

/-- A check of a template that could be loaded. -/
theorem reflects_settleCheck (look : Look) {e : Identity} (template : String)
    (hcheck : look.isFull = false) (hloaded : e.loadFailed = false)
    (htemplate : e.isTemplate = true) :
    (e.settleCheck look.shown template).Reflects template look := by
  cases hm : look.shown.complete with
  | true =>
    rw [settleCheck_of_complete e template hm]
    exact ⟨rfl, rfl, by simp [hm, hloaded], by simp [hm], by simp [hm]⟩
  | false =>
    rw [settleCheck_of_incomplete e template hm]
    exact ⟨rfl, rfl, by simp [hcheck, hloaded], by simp [hm, hcheck, htemplate], by simp⟩

end Identity

namespace IdentityCache

variable {l : Type}

/-- The entry that a look-up gives reflects its own look, or else the one before. -/
theorem Outcome.reflects {c : IdentityCache l} {pid : UInt32} {allow : Bool}
    {known : Option Identity} {shown : Option Metadata} {e : Identity} {low : Option UInt32}
    (h : Outcome c pid allow known shown e low) {past : List Look}
    (hold : ∀ e₀, known = some e₀ →
      ∃ look, past.getLast? = some look ∧ e₀.Reflects c.templateName look) :
    ∃ look, (past ++ shown.toList.map (Look.mk pid known c.earliestTemplate)).getLast? = some look ∧
      e.Reflects c.templateName look := by
  cases h with
  | known hdue => simpa using hold _ rfl
  | @first e m he =>
    refine ⟨⟨pid, none, c.earliestTemplate, m⟩, by simp, ?_⟩
    rw [he]
    exact Identity.reflects_settleLoad ⟨pid, none, c.earliestTemplate, m⟩ _ rfl rfl
  | @retry e₀ e m hallow hfailed hleft he =>
    obtain ⟨before, -, hbefore⟩ := hold e₀ rfl
    let look : Look := ⟨pid, some e₀, c.earliestTemplate, m⟩
    have hfull : look.isFull = true := by
      simp [look, Look.isFull, Identity.pending_eq_retry_iff.2 ⟨hfailed, hleft⟩]
    refine ⟨look, by simp [look], ?_⟩
    rw [he]
    exact Identity.reflects_settleLoad look _ hfull
      (hbefore.isTemplate_of_loadFailed hfailed)
  | @check e₀ e m hallow hsettled htemplate hdue he =>
    obtain ⟨before, -, hbefore⟩ := hold e₀ rfl
    let look : Look := ⟨pid, some e₀, c.earliestTemplate, m⟩
    have hcheck : look.isFull = false := by
      simp [look, Look.isFull, Identity.pending_eq_template_iff.2 ⟨hsettled, htemplate, hdue⟩]
    have hloaded : e₀.loadFailed = false := by
      cases hf : e₀.loadFailed with
      | false => rfl
      | true =>
        rw [hbefore.isTemplate_of_loadFailed hf] at htemplate
        cases htemplate
    refine ⟨look, by simp [look], ?_⟩
    rw [he]
    exact Identity.reflects_settleCheck look _ hcheck hloaded htemplate

variable [MetadataLoader l]

/-- Every entry of a cache reflects the last look at its process. -/
structure Reflecting (c : IdentityCache l) (past : List Look) : Prop where
  keyed : c.Keyed
  entries : ∀ pid e, c.get? pid = some e →
    ∃ look, (looksAt pid past).getLast? = some look ∧ e.Reflects c.templateName look

namespace Reflecting

variable {c : IdentityCache l} {past : List Look}

omit [MetadataLoader l] in
theorem new (loader : l) (templateName : String) (checks : Nat) :
    (IdentityCache.new loader templateName checks).Reflecting [] where
  keyed := fun pid e h => by cases h
  entries := fun pid e h => by cases h

theorem resolve (h : c.Reflecting past) (pid : UInt32) (allow : Bool) :
    (c.resolve pid allow).2.Reflecting (past ++ c.looks pid allow) := by
  obtain ⟨shown, e, low, houtcome, hlooks, -, hself, -⟩ := resolve_outcome h.keyed pid allow
  refine ⟨h.keyed.resolve pid allow, fun q e' hget => ?_⟩
  rw [looksAt_append, looksAt_looks h.keyed, templateName_resolve]
  by_cases hq : q = pid
  · subst hq
    rw [hself, Option.some.injEq] at hget
    rw [if_pos rfl, hlooks, ← hget]
    exact houtcome.reflects (h.entries q)
  · rw [if_neg hq, List.append_nil]
    exact h.entries q e' ((get?_resolve_of_ne h.keyed hq allow).symm.trans hget)

theorem resolveAll (h : c.Reflecting past) (calls : List (UInt32 × Bool)) :
    (c.resolveAll calls).Reflecting (past ++ c.history calls) :=
  history_induction (fun _ _ pid allow h => h.resolve pid allow) h calls

end Reflecting

/-- **Flags describe the last look, unless that was a check that failed.**  Whatever a loader shows
and in whatever order processes are looked up, every entry has the texts of the last look at its
process.  Its flags say whether that look failed, and otherwise whether it showed the template, if
and only if the look was a full load or could read the process.  After a check that could not, they
still say that the load succeeded and showed a template, and no check is left. -/
theorem describes_iff_full_or_read (loader : l) (templateName : String) (checks : Nat)
    (calls : List (UInt32 × Bool)) (pid : UInt32) {e : Identity}
    (hget : ((IdentityCache.new loader templateName checks).resolveAll calls).get? pid = some e) :
    ∃ look, (looksAt pid ((IdentityCache.new loader templateName checks).history calls)).getLast? =
        some look ∧
      e.cmdline = look.shown.cmdline ∧ e.executable = look.shown.executable ∧
      (e.Describes templateName look.shown ↔
        look.isFull = true ∨ look.shown.complete = true) ∧
      (look.isFull = false → look.shown.complete = false →
        e.loadFailed = false ∧ e.isTemplate = true ∧ e.templateChecks = 0) := by
  have hall := (Reflecting.new loader templateName checks).resolveAll calls
  rw [List.nil_append] at hall
  obtain ⟨look, hlast, hreflects⟩ := hall.entries pid e hget
  rw [templateName_resolveAll] at hreflects
  exact ⟨look, hlast, hreflects.cmdline, hreflects.executable, hreflects.describes_iff,
    hreflects.stale⟩

/-- A process that cannot be read at first, shows the template then, and its own program at last. -/
def maturing : MetadataScript where
  items := [(7, [⟨"", "", false⟩, ⟨"zygote --start", "/bin/zygote", true⟩,
    ⟨"app", "/bin/app", true⟩])]

/-- The look at its own program is a check, and the flags describe it. -/
theorem describes_iff_full_or_read_matured :
    ∃ e look, ((IdentityCache.new maturing "zygote" 10).resolveAll
        [(7, true), (7, true), (7, true)]).get? 7 = some e ∧
      (looksAt 7 ((IdentityCache.new maturing "zygote" 10).history
        [(7, true), (7, true), (7, true)])).getLast? = some look ∧
      look.isFull = false ∧ e.cmdline = "app" ∧ e.Describes "zygote" look.shown := by
  obtain ⟨look, hlast, hcmdline, -, hdescribes, -⟩ :=
    describes_iff_full_or_read maturing "zygote" 10 [(7, true), (7, true), (7, true)] 7 rfl
  have hlook := hlast.symm.trans (show _ = some _ from rfl)
  cases hlook
  exact ⟨_, _, rfl, hlast, by decide, by decide, hdescribes.2 (.inr rfl)⟩

/-- A template whose program is gone at the second look. -/
def vanishing : MetadataScript where
  items := [(40, [⟨"zygote", "/system/bin/app_process", true⟩, ⟨"", "", false⟩])]

/-- The last look failed and showed no name.  Yet the entry says that its load succeeded and that it
is a template. -/
theorem failed_check_not_described :
    ∃ e look, ((IdentityCache.new vanishing "zygote" 10).resolveAll
        [(40, true), (40, true)]).get? 40 = some e ∧
      (looksAt 40 ((IdentityCache.new vanishing "zygote" 10).history
        [(40, true), (40, true)])).getLast? = some look ∧
      look.shown.complete = false ∧ e.loadFailed = false ∧
      programName e.cmdline ≠ "zygote".toList ∧ e.isTemplate = true ∧
      ¬e.Describes "zygote" look.shown := by
  refine ⟨_, _, rfl, rfl, by decide, by decide, by decide, by decide, fun h => ?_⟩
  exact absurd (h.loadFailed.2 (by decide)) (by decide)

end IdentityCache

end CounterTrace
