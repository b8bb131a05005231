import CounterTrace.Proofs.Identity.Policy

/-!
# What re-checking costs

How often a process is looked at in the course of look-ups.  A process whose loads fail is tried
again with every permission until its load checks are spent.  A template that is newer than the
lowest one is looked at with every permission until it shows another program; whatever other
processes come in between, the lowest template does not rise, so it stays newer.  All other looks
are paid for by the two budgets.

    c.LaterTemplate pid                      `pid` is a template above the lowest one
    length_looksAt_of_failing                as many looks as permissions and checks allow
    LaterTemplate.resolveAll                 it stays one, or it has departed and is final
    resolveAll_spends_budget                 the bounds, over any series of look-ups
-/

namespace CounterTrace

/-- Whether a complete look shows another program than the template. -/
def Look.departs (template : String) (look : Look) : Bool :=
  look.shown.complete && !look.shown.names template

namespace IdentityCache

variable {l : Type}

/-- A process that looks like the template and is newer than the lowest one. -/
def LaterTemplate (c : IdentityCache l) (pid : UInt32) : Prop :=
  ∃ e p, c.get? pid = some e ∧ e.isTemplate = true ∧ e.loadFailed = false ∧
    c.earliestTemplate = some p ∧ p < pid

/-- A process that was loaded and is no template. -/
def Departed (c : IdentityCache l) (pid : UInt32) : Prop :=
  ∃ e, c.get? pid = some e ∧ e.isTemplate = false ∧ e.loadFailed = false

variable [MetadataLoader l] {c : IdentityCache l}

/-! ## Failing loads -/

/-- While its loads fail, a process is looked at with every permission until its load checks are
spent. -/
theorem length_looksAt_of_failing (hc : c.Keyed) {pid : UInt32} {e : Identity}
    (hget : c.get? pid = some e) (hfailed : e.loadFailed = true) (htemplate : e.isTemplate = false)
    {calls : List (UInt32 × Bool)}
    (hall : ∀ look ∈ looksAt pid (c.history calls), look.shown.complete = false) :
    (looksAt pid (c.history calls)).length = min (calls.count (pid, true)) e.loadChecks := by
  induction calls generalizing c e with
  | nil => simp [history, looksAt]
  | cons call calls ih =>
    obtain ⟨q, allow⟩ := call
    obtain ⟨shown, e', low, houtcome, hlooks, -, hself, -⟩ := resolve_outcome hc q allow
    have hkeyed := hc.resolve q allow
    rw [history, looksAt_append] at hall ⊢
    have hrest : ∀ look ∈ looksAt pid ((c.resolve q allow).2.history calls),
        look.shown.complete = false := fun look hlook => hall look (List.mem_append_right _ hlook)
    by_cases hq : pid = q
    · subst hq
      rw [looksAt_looks hc, if_pos rfl, hlooks] at hall ⊢
      rw [hget] at houtcome
      cases houtcome with
      | known hdue =>
        rw [List.length_append, ih hkeyed hself hfailed htemplate hrest]
        -- a permission that leads to no look finds the load checks spent
        cases allow with
        | false => simp
        | true =>
          have hspent : e.loadChecks = 0 :=
            Nat.eq_zero_of_not_pos fun hleft => hdue rfl (.inl ⟨hfailed, hleft⟩)
          simp [hspent]
      | @retry e e' m hallow hfailed' hleft he =>
        subst hallow
        have hm : m.complete = false := hall _ (List.mem_append_left _ (List.mem_singleton_self _))
        rw [Identity.settleLoad_of_incomplete _ _ hm] at he
        subst he
        rw [List.length_append, ih hkeyed hself rfl htemplate hrest, List.count_cons_self]
        simp only [Option.toList_some, List.length_map, List.length_singleton]
        omega
      | check hallow hsettled htemplate' hdue he =>
        rw [htemplate] at htemplate'
        cases htemplate'
    · have hother : (c.resolve q allow).2.get? pid = some e :=
        (get?_resolve_of_ne hc hq allow).trans hget
      have hcount : ((q, allow) :: calls).count (pid, true) = calls.count (pid, true) :=
        List.count_cons_of_ne fun h => hq (congrArg Prod.fst h).symm
      rw [looksAt_looks hc, if_neg hq, List.nil_append, hcount]
      exact ih hkeyed hother hfailed htemplate hrest

/-- As long as its loads fail, a process is looked at once when it is first looked up, and then as
its load checks allow. -/
theorem length_looksAt_of_all_failing (hc : c.Keyed) {pid : UInt32} (hnew : c.get? pid = none)
    (allow : Bool) {calls : List (UInt32 × Bool)}
    (hall : ∀ look ∈ looksAt pid (c.history ((pid, allow) :: calls)), look.shown.complete = false) :
    (looksAt pid (c.history ((pid, allow) :: calls))).length =
      1 + min (calls.count (pid, true)) c.checks := by
  obtain ⟨shown, e, low, houtcome, hlooks, -, hself, -⟩ := resolve_outcome hc pid allow
  rw [history, looksAt_append, looksAt_looks hc, if_pos rfl, hlooks] at hall ⊢
  rw [hnew] at houtcome
  cases houtcome with
  | @first e m he =>
    have hm : m.complete = false := hall _ (List.mem_append_left _ (List.mem_singleton_self _))
    rw [Identity.settleLoad_of_incomplete _ _ hm] at he
    subst he
    rw [List.length_append, length_looksAt_of_failing (hc.resolve pid allow) hself rfl rfl
      fun look hlook => hall look (List.mem_append_right _ hlook)]
    rfl

/-- A process that was looked up is known. -/
theorem exists_get?_of_asked (hc : c.Keyed) {pid : UInt32} {calls : List (UInt32 × Bool)}
    (h : ∃ call ∈ calls, call.1 = pid) : ∃ e, (c.resolveAll calls).get? pid = some e := by
  obtain ⟨⟨q, allow⟩, hcall, rfl⟩ := h
  obtain ⟨before, after, rfl⟩ := List.append_of_mem hcall
  have hkeyed := hc.resolveAll before
  obtain ⟨e, hget, -⟩ := ages_resolveAll (hkeyed.resolve q allow)
    (get?_resolve_self hkeyed q allow) after
  rw [resolveAll_append]
  exact ⟨e, hget⟩

/-! ## Templates above the lowest one -/

namespace LaterTemplate

variable {pid : UInt32}

/-- With permission it is looked at. -/
theorem looks (h : c.LaterTemplate pid) (hc : c.Keyed) :
    ∃ look, c.looks pid true = [look] ∧ look.pid = pid := by
  obtain ⟨e, p, hget, htemplate, -, hearliest, hlt⟩ := h
  obtain ⟨shown, e', low, houtcome, hlooks, -, -, -⟩ := resolve_outcome hc pid true
  rw [hget] at houtcome
  cases shown with
  | some m => exact ⟨_, hlooks, rfl⟩
  | none =>
    cases houtcome with
    | known hdue =>
      exact absurd (.inr ⟨htemplate, .inl ⟨p, hearliest, (hc pid e hget).symm ▸ hlt⟩⟩) (hdue rfl)

/-- A look-up leaves it what it is, unless it shows another program. -/
theorem resolve (h : c.LaterTemplate pid) (hc : c.Keyed) (q : UInt32) (allow : Bool) :
    ((∀ look ∈ looksAt pid (c.looks q allow), look.departs c.templateName = false) ∧
        (c.resolve q allow).2.LaterTemplate pid) ∨
      ((∃ look ∈ looksAt pid (c.looks q allow), look.departs c.templateName = true) ∧
        (c.resolve q allow).2.Departed pid) := by
  obtain ⟨e, p, hget, htemplate, hloaded, hearliest, hlt⟩ := h
  obtain ⟨shown, e', low, houtcome, hlooks, -, hself, hlow⟩ := resolve_outcome hc q allow
  -- the lowest template may have fallen, and `pid` is above it all the more
  obtain ⟨p', hp', hle⟩ := houtcome.low_le hearliest
  have hlt' : p' < pid := UInt32.lt_of_le_of_lt hle hlt
  rw [looksAt_looks hc]
  by_cases hq : pid = q
  · subst hq
    rw [if_pos rfl, hlooks]
    rw [hget] at houtcome
    cases houtcome with
    | known hdue =>
      exact .inl ⟨by simp, e, p', hself, htemplate, hloaded, hlow.trans hp', hlt'⟩
    | retry hallow hfailed hleft he =>
      rw [hloaded] at hfailed
      cases hfailed
    | @check e e' m hallow hsettled htemplate' hdue he =>
      cases hm : m.complete with
      | false =>
        rw [Identity.settleCheck_of_incomplete _ _ hm] at he
        subst he
        exact .inl ⟨by simp [Look.departs, hm], _, p', hself, htemplate, hloaded, hlow.trans hp',
          hlt'⟩
      | true =>
        rw [Identity.settleCheck_of_complete _ _ hm] at he
        subst he
        cases hname : m.names c.templateName with
        | true =>
          exact .inl ⟨by simp [Look.departs, hname], _, p', hself, hname, hloaded, hlow.trans hp',
            hlt'⟩
        | false => exact .inr ⟨by simp [Look.departs, hm, hname], _, hself, hname, hloaded⟩
  · rw [if_neg hq]
    exact .inl ⟨by simp, e, p', (get?_resolve_of_ne hc hq allow).trans hget, htemplate, hloaded,
      hlow.trans hp', hlt'⟩

end LaterTemplate

/-- A process that has departed is never looked at again. -/
theorem Departed.resolveAll {pid : UInt32} (h : c.Departed pid) (hc : c.Keyed)
    (calls : List (UInt32 × Bool)) :
    (c.resolveAll calls).Departed pid ∧ looksAt pid (c.history calls) = [] := by
  obtain ⟨e, hget, htemplate, hloaded⟩ := h
  have hdue : ∀ earliest, ¬e.Due earliest := by
    rintro earliest (⟨hfailed, -⟩ | ⟨htemplate', -⟩)
    · rw [hloaded] at hfailed
      cases hfailed
    · rw [htemplate] at htemplate'
      cases htemplate'
  obtain ⟨hget', hlooks⟩ := resolveAll_of_never_due hc hget hdue calls
  exact ⟨⟨e, hget', htemplate, hloaded⟩, hlooks⟩

/-- A template above the lowest one stays one until it shows another program, and then it has
departed. -/
theorem LaterTemplate.resolveAll {pid : UInt32} (h : c.LaterTemplate pid) (hc : c.Keyed)
    (calls : List (UInt32 × Bool)) :
    ((∀ look ∈ looksAt pid (c.history calls), look.departs c.templateName = false) ∧
        (c.resolveAll calls).LaterTemplate pid) ∨
      ((∃ look ∈ looksAt pid (c.history calls), look.departs c.templateName = true) ∧
        (c.resolveAll calls).Departed pid) := by
  induction calls generalizing c with
  | nil => exact .inl ⟨by simp [history, looksAt], h⟩
  | cons call calls ih =>
    have hkeyed := hc.resolve call.1 call.2
    rw [history, looksAt_append]
    rcases h.resolve hc call.1 call.2 with ⟨hstay, hlater⟩ | ⟨⟨look, hlook, hdeparts⟩, hgone⟩
    · have ih' := ih hlater hkeyed
      rw [templateName_resolve] at ih'
      rcases ih' with ⟨hstay', hlater'⟩ | ⟨⟨look, hlook, hdeparts⟩, hgone⟩
      · refine .inl ⟨fun look hlook => ?_, hlater'⟩
        exact (List.mem_append.1 hlook).elim (hstay look) (hstay' look)
      · exact .inr ⟨⟨look, List.mem_append_right _ hlook, hdeparts⟩, hgone⟩
    · exact .inr ⟨⟨look, List.mem_append_left _ hlook, hdeparts⟩,
        (hgone.resolveAll hkeyed calls).1⟩

/-- It is looked at with every permission until it shows another program, and never again then. -/
theorem LaterTemplate.looks_until_departs {pid : UInt32} (h : c.LaterTemplate pid) (hc : c.Keyed)
    (later : List (UInt32 × Bool)) :
    ((∀ look ∈ looksAt pid (c.history later), look.departs c.templateName = false) →
        ∃ look, (c.resolveAll later).looks pid true = [look] ∧ look.pid = pid) ∧
      ((∃ look ∈ looksAt pid (c.history later), look.departs c.templateName = true) →
        ∀ last, looksAt pid ((c.resolveAll later).history last) = []) := by
  have hkeyed := hc.resolveAll later
  rcases h.resolveAll hc later with ⟨hstay, hlater⟩ | ⟨⟨look, hlook, hdeparts⟩, hgone⟩
  · refine ⟨fun _ => hlater.looks hkeyed, fun ⟨look, hlook, hdeparts⟩ last => ?_⟩
    rw [hstay look hlook] at hdeparts
    cases hdeparts
  · refine ⟨fun hstay => ?_, fun _ last => (hgone.resolveAll hkeyed last).2⟩
    rw [hstay look hlook] at hdeparts
    cases hdeparts

omit [MetadataLoader l] in
/-- A template above the lowest one has been loaded. -/
theorem Accounted.laterTemplate {past : List Look} (h : c.Accounted past) {pid p : UInt32}
    {e : Identity} (hget : c.get? pid = some e) (htemplate : e.isTemplate = true)
    (hearliest : c.earliestTemplate = some p) (hlt : p < pid) : c.LaterTemplate pid := by
  have hloaded : e.loadFailed = false := by
    cases hf : e.loadFailed with
    | false => rfl
    | true =>
      rw [((h.entries pid e hget).failed hf).1] at htemplate
      cases htemplate
  exact ⟨e, p, hget, htemplate, hloaded, hearliest, hlt⟩

/-- **What re-checking costs.**  Whatever a loader shows and in whatever order processes are looked
up, a process is looked at no more than once and as often as its two budgets pay for, where looks at
a template above the lowest one are not counted.  If all its loads fail, it is looked at once and
with every later permission until its load checks are spent.  Without permission only a new process
is looked at.  A template above the lowest one is looked at with every permission until it shows
another program, and never after that. -/
theorem resolveAll_spends_budget (loader : l) (templateName : String) (checks : Nat)
    (calls : List (UInt32 × Bool)) :
    ∃ c past, (IdentityCache.new loader templateName checks).resolveAll calls = c ∧
      (IdentityCache.new loader templateName checks).history calls = past ∧
      (∀ pid, ((looksAt pid past).filter (!·.ofLaterTemplate)).length ≤ 1 + 2 * checks) ∧
      (∀ pid allow before after, calls = before ++ (pid, allow) :: after →
        (∀ call ∈ before, call.1 ≠ pid) →
        (∀ look ∈ looksAt pid past, look.shown.complete = false) →
        (looksAt pid past).length = 1 + min (after.count (pid, true)) checks) ∧
      (∀ pid, ∀ look ∈ c.looks pid false, look.pid = pid ∧ ∀ call ∈ calls, call.1 ≠ pid) ∧
      (∀ pid e p, c.get? pid = some e → e.isTemplate = true → c.earliestTemplate = some p →
        p < pid → ∀ later,
          ((∀ look ∈ looksAt pid (c.history later), look.departs templateName = false) →
            ∃ look, (c.resolveAll later).looks pid true = [look] ∧ look.pid = pid) ∧
          ((∃ look ∈ looksAt pid (c.history later), look.departs templateName = true) →
            ∀ last, looksAt pid ((c.resolveAll later).history last) = [])) := by
  have hnew := Accounted.new loader templateName checks
  have hacc := hnew.resolveAll calls
  have hname : ((IdentityCache.new loader templateName checks).resolveAll calls).templateName =
      templateName := by
    rw [templateName_resolveAll]
    rfl
  rw [List.nil_append] at hacc
  refine ⟨_, _, rfl, rfl, ?_, ?_, ?_, ?_⟩
  · intro pid
    cases hget : ((IdentityCache.new loader templateName checks).resolveAll calls).get? pid with
    | none =>
      rw [hacc.unseen pid hget]
      exact Nat.zero_le _
    | some e =>
      have hpaid := (hacc.entries pid e hget).paid
      rw [checks_resolveAll, show (IdentityCache.new loader templateName checks).checks = checks
        from rfl] at hpaid
      omega
  · rintro pid allow before after rfl hbefore hall
    -- nothing is known of the process when it is first looked up
    obtain ⟨hget, hlooks⟩ := resolveAll_of_not_asked hnew.keyed hbefore
    rw [history_append, looksAt_append, hlooks, List.nil_append] at hall ⊢
    rw [length_looksAt_of_all_failing (hnew.keyed.resolveAll before) hget allow hall,
      checks_resolveAll]
    rfl
  · intro pid look hlook
    refine ⟨pid_of_mem_looks hacc.keyed hlook, fun call hcall hpid => ?_⟩
    obtain ⟨e, hget⟩ := exists_get?_of_asked hnew.keyed ⟨call, hcall, hpid⟩
    rw [looks_still hget fun h => by cases h] at hlook
    cases hlook
  · intro pid e p hget htemplate hearliest hlt later
    have hlater := hacc.laterTemplate hget htemplate hearliest hlt
    have hcosts := hlater.looks_until_departs hacc.keyed later
    rwa [hname] at hcosts

end IdentityCache

end CounterTrace
