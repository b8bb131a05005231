import CounterTrace.Proofs.Identity.Looking

/-!
# The rules of re-checking

What an entry says, in terms of all looks at its process.  The first look fixes the mode.  As long
as the full loads fail the process is no template and has all its template checks; after the first
that succeeds it has no load checks, and only a template keeps template checks.  Both budgets only
shrink, and an entry for which nothing can become due is final.

    e.Accounts checks past       `e` is what comes of the looks `past` at its process
    c.Accounted past             all entries of `c`, and the lowest template  (Accounted.resolveAll)
    e.AgesTo e'                  what `e` keeps in the course of look-ups         (ages_resolveAll)
    resolveAll_keeps_rules       the rules, over any series of look-ups
-/

namespace CounterTrace

namespace Look

/-- Whether a look is a full load: the first one, or one that tries a failed load again.  Every
other look is a check of a template. -/
def isFull (look : Look) : Bool :=
  match look.known with
  | none => true
  | some e => e.pending look.earliest == .retry

/-- Whether a look is at a template that is newer than the lowest one. -/
def ofLaterTemplate (look : Look) : Bool :=
  look.known.any (·.isTemplate) && look.earliest.any (· < look.pid)

end Look

namespace Identity

/-- An entry is what comes of all looks at its process.  Looks that its budgets pay for and the
checks that are left do not exceed the first look and both budgets. -/
structure Accounts (checks : Nat) (past : List Look) (e : Identity) : Prop where
  mode : ∃ look, past.head? = some look ∧
    e.mode = if look.shown.cmdline = "" ∧ look.shown.executable = "" then .kernel else .user
  load : ∃ look, (past.filter (·.isFull)).getLast? = some look ∧
    e.loadFailed = !look.shown.complete
  loadChecks_le : e.loadChecks ≤ checks
  templateChecks_le : e.templateChecks ≤ checks
  failed : e.loadFailed = true → e.isTemplate = false ∧ e.templateChecks = checks
  loaded : e.loadFailed = false →
    e.loadChecks = 0 ∧ (e.isTemplate = false → e.templateChecks = 0)
  paid : (past.filter (!·.ofLaterTemplate)).length + e.loadChecks + e.templateChecks ≤
    1 + 2 * checks

/-- What a look at the process keeps of its entry. -/
structure AgesTo (e e' : Identity) : Prop where
  mode : e'.mode = e.mode
  loadChecks : e'.loadChecks ≤ e.loadChecks
  templateChecks : e'.templateChecks ≤ e.templateChecks

theorem AgesTo.refl (e : Identity) : e.AgesTo e := ⟨rfl, Nat.le_refl _, Nat.le_refl _⟩

theorem AgesTo.trans {e e' e'' : Identity} (h : e.AgesTo e') (h' : e'.AgesTo e'') :
    e.AgesTo e'' :=
  ⟨h'.mode.trans h.mode, Nat.le_trans h'.loadChecks h.loadChecks,
    Nat.le_trans h'.templateChecks h.templateChecks⟩

theorem ages_settleLoad (e : Identity) (m : Metadata) (template : String) :
    e.AgesTo (e.settleLoad m template) := by
  cases hm : m.complete with
  | false =>
    rw [settleLoad_of_incomplete e template hm]
    exact ⟨rfl, Nat.le_refl _, Nat.le_refl _⟩
  | true =>
    rw [settleLoad_of_complete e template hm]
    refine ⟨rfl, Nat.zero_le _, ?_⟩
    dsimp only
    split <;> omega

theorem ages_settleCheck (e : Identity) (m : Metadata) (template : String) :
    e.AgesTo (e.settleCheck m template) := by
  cases hm : m.complete with
  | false =>
    rw [settleCheck_of_incomplete e template hm]
    exact ⟨rfl, Nat.le_refl _, Nat.zero_le _⟩
  | true =>
    rw [settleCheck_of_complete e template hm]
    refine ⟨rfl, Nat.le_refl _, ?_⟩
    dsimp only
    split <;> omega

/-- The mode that the first look at a process fixes. -/
theorem modeOf_eq (m : Metadata) :
    modeOf m = if m.cmdline = "" ∧ m.executable = "" then .kernel else .user := by
  simp [modeOf]

namespace Accounts

variable {checks : Nat} {past : List Look} {e : Identity}

/-- A full load of a process that is no template and has all its template checks. -/
theorem settleLoad {look : Look} (template : String) (hfull : look.isFull = true)
    (hmode : ∃ first, (past ++ [look]).head? = some first ∧
      e.mode = if first.shown.cmdline = "" ∧ first.shown.executable = "" then .kernel else .user)
    (htemplate : e.isTemplate = false) (hall : e.templateChecks = checks)
    (hchecks : e.loadChecks ≤ checks)
    (hpaid : (past.filter (!·.ofLaterTemplate)).length + e.loadChecks + e.templateChecks ≤
      2 * checks) :
    (e.settleLoad look.shown template).Accounts checks (past ++ [look]) := by
  have hload : ((past ++ [look]).filter (·.isFull)).getLast? = some look := by
    simp [List.filter_append, hfull]
  have hlength : ((past ++ [look]).filter (!·.ofLaterTemplate)).length ≤
      (past.filter (!·.ofLaterTemplate)).length + 1 := by
    rw [List.filter_append, List.length_append]
    exact Nat.add_le_add_left (List.length_filter_le _ [look]) _
  cases hm : look.shown.complete with
  | false =>
    rw [settleLoad_of_incomplete e template hm]
    exact {
      mode := hmode
      load := ⟨look, hload, by simp [hm]⟩
      loadChecks_le := hchecks
      templateChecks_le := Nat.le_of_eq hall
      failed := fun _ => ⟨htemplate, hall⟩
      loaded := fun h => by cases h
      paid := by dsimp only; omega }
  | true =>
    rw [settleLoad_of_complete e template hm]
    exact {
      mode := hmode
      load := ⟨look, hload, by simp [hm]⟩
      loadChecks_le := Nat.zero_le _
      templateChecks_le := by dsimp only; split <;> omega
      failed := fun h => by cases h
      loaded := fun _ => ⟨rfl, fun h => by simp_all⟩
      paid := by dsimp only; split <;> omega }

/-- A check of a template, which it pays for unless the template is newer than the lowest one. -/
theorem settleCheck (h : e.Accounts checks past) {look : Look} (template : String)
    (hcheck : look.isFull = false) (htemplate : e.isTemplate = true)
    (hdue : look.ofLaterTemplate = true ∨ 0 < e.templateChecks) :
    (e.settleCheck look.shown template).Accounts checks (past ++ [look]) := by
  obtain ⟨first, hfirst, hmode⟩ := h.mode
  obtain ⟨full, hload, hfailed⟩ := h.load
  have hloaded : e.loadFailed = false := by
    cases hf : e.loadFailed with
    | false => rfl
    | true => rw [(h.failed hf).1] at htemplate; cases htemplate
  have hnone := (h.loaded hloaded).1
  have hmode' : ∃ look', (past ++ [look]).head? = some look' ∧ e.mode =
      if look'.shown.cmdline = "" ∧ look'.shown.executable = "" then .kernel else .user :=
    ⟨first, by rw [List.head?_append, hfirst]; rfl, hmode⟩
  have hload' : ((past ++ [look]).filter (·.isFull)).getLast? = some full := by
    simp [List.filter_append, hcheck, hload]
  -- either the look is not counted, or a template check is left to pay for it
  have hpaid : ((past ++ [look]).filter (!·.ofLaterTemplate)).length + (e.templateChecks - 1) ≤
      1 + 2 * checks := by
    have hbefore := h.paid
    rw [List.filter_append, List.length_append]
    rcases hdue with hlater | hleft
    · simp only [List.filter_cons, List.filter_nil, hlater, Bool.not_true, Bool.false_eq_true,
        if_false, List.length_nil]
      omega
    · have hone := List.length_filter_le (!·.ofLaterTemplate) [look]
      rw [List.length_singleton] at hone
      omega
  have hle := h.templateChecks_le
  cases hm : look.shown.complete with
  | false =>
    rw [settleCheck_of_incomplete e template hm]
    exact {
      mode := hmode'
      load := ⟨full, hload', hfailed⟩
      loadChecks_le := h.loadChecks_le
      templateChecks_le := Nat.zero_le _
      failed := fun hf => by rw [hloaded] at hf; cases hf
      loaded := fun _ => ⟨hnone, fun _ => rfl⟩
      paid := by dsimp only; omega }
  | true =>
    rw [settleCheck_of_complete e template hm]
    exact {
      mode := hmode'
      load := ⟨full, hload', hfailed⟩
      loadChecks_le := h.loadChecks_le
      templateChecks_le := by dsimp only; split <;> omega
      failed := fun hf => by rw [hloaded] at hf; cases hf
      loaded := fun _ => ⟨hnone, fun ht => by simp_all⟩
      paid := by dsimp only; split <;> omega }

end Accounts

/-- Nothing can become due any more: the loads failed and are not tried again, or one succeeded and
the process is no template. -/
def Final (e : Identity) : Prop :=
  (e.loadFailed = true ∧ e.loadChecks = 0) ∨ (e.loadFailed = false ∧ e.isTemplate = false)

theorem Final.not_due {checks : Nat} {past : List Look} {e : Identity} (h : e.Final)
    (he : e.Accounts checks past) (earliest : Option UInt32) : ¬e.Due earliest := by
  intro hdue
  rcases h with ⟨hfailed, hnone⟩ | ⟨hloaded, htemplate⟩
  · rcases hdue with ⟨-, hleft⟩ | ⟨htemplate, -⟩
    · omega
    · rw [(he.failed hfailed).1] at htemplate
      cases htemplate
  · rcases hdue with ⟨hfailed, -⟩ | ⟨htemplate', -⟩
    · rw [hloaded] at hfailed
      cases hfailed
    · rw [htemplate] at htemplate'
      cases htemplate'

end Identity

namespace IdentityCache

variable {l : Type}

/-! ## The lowest template -/

theorem lowest_le (pid : UInt32) (earliest : Option UInt32) : lowest pid earliest ≤ pid := by
  cases earliest with
  | none => exact UInt32.le_refl pid
  | some p =>
    simp only [lowest]
    split
    · exact UInt32.le_refl pid
    · next h => exact UInt32.not_lt.1 h

theorem lowest_some_le (pid p : UInt32) : lowest pid (some p) ≤ p := by
  simp only [lowest]
  split
  · next h => exact UInt32.le_of_lt h
  · exact UInt32.le_refl p

section
variable {earliest : Option UInt32} {e : Identity} {m : Metadata} {p : UInt32}

/-- The lowest template is never replaced by a higher one. -/
theorem lowestAfter_le (h : earliest = some p) :
    ∃ q, lowestAfter earliest e m = some q ∧ q ≤ p := by
  unfold lowestAfter
  split
  · exact ⟨_, rfl, h ▸ lowest_some_le e.pid p⟩
  · exact ⟨p, h, UInt32.le_refl p⟩

/-- A full load that shows a template makes the lowest one at most that. -/
theorem lowestAfter_of_template (hm : m.complete = true) (he : e.isTemplate = true) :
    ∃ q, lowestAfter earliest e m = some q ∧ q ≤ e.pid := by
  rw [lowestAfter, hm, he]
  exact ⟨_, rfl, lowest_le e.pid earliest⟩

/-- The lowest template is the one from before or the one that the load shows. -/
theorem lowestAfter_eq_some (h : lowestAfter earliest e m = some p) :
    earliest = some p ∨ (p = e.pid ∧ e.isTemplate = true) := by
  unfold lowestAfter at h
  split at h
  · next htemplate =>
    obtain ⟨-, htemplate⟩ := Bool.and_eq_true_iff.1 htemplate
    rw [Option.some.injEq] at h
    cases earliest with
    | none => exact .inr ⟨h.symm, htemplate⟩
    | some q =>
      simp only [lowest] at h
      split at h
      · exact .inr ⟨h.symm, htemplate⟩
      · exact .inl (congrArg some h)
  · exact .inl h

end

/-! ## One look-up -/

namespace Outcome

variable {c : IdentityCache l} {pid : UInt32} {allow : Bool} {known : Option Identity}
  {shown : Option Metadata} {e : Identity} {low : Option UInt32}
  (h : Outcome c pid allow known shown e low)
include h

/-- The entry that is given is what comes of the looks before and the one of this look-up. -/
theorem accounts {past : List Look} (hunseen : known = none → past = [])
    (hseen : ∀ e₀, known = some e₀ → e₀.pid = pid ∧ e₀.Accounts c.checks past) :
    e.Accounts c.checks (past ++ shown.toList.map (⟨pid, known, c.earliestTemplate, ·⟩)) := by
  cases h with
  | known hdue => simpa using (hseen _ rfl).2
  | @first e m he =>
    subst he
    rw [hunseen rfl]
    have hfull : (Look.mk pid none c.earliestTemplate m).isFull = true := rfl
    refine .settleLoad _ hfull ⟨_, rfl, Identity.modeOf_eq m⟩ rfl rfl (Nat.le_refl _) ?_
    simp only [Identity.blank, List.filter_nil, List.length_nil]
    omega
  | @retry e₀ e m hallow hfailed hleft he =>
    subst he
    obtain ⟨-, hold⟩ := hseen e₀ rfl
    obtain ⟨htemplate, hall⟩ := hold.failed hfailed
    obtain ⟨first, hfirst, hmode⟩ := hold.mode
    have hpaid := hold.paid
    have hfull : (Look.mk pid (some e₀) c.earliestTemplate m).isFull = true := by
      simp [Look.isFull, Identity.pending_eq_retry_iff.2 ⟨hfailed, hleft⟩]
    refine .settleLoad _ hfull ⟨first, ?_, hmode⟩ htemplate hall ?_ ?_
    · rw [List.head?_append, hfirst]
      rfl
    · exact Nat.le_trans (Nat.sub_le _ _) hold.loadChecks_le
    · dsimp only
      omega
  | @check e₀ e m hallow hsettled htemplate hdue he =>
    subst he
    obtain ⟨hpid, hold⟩ := hseen e₀ rfl
    have hcheck : (Look.mk pid (some e₀) c.earliestTemplate m).isFull = false := by
      simp [Look.isFull, Identity.pending_eq_template_iff.2 ⟨hsettled, htemplate, hdue⟩]
    refine hold.settleCheck _ hcheck htemplate ?_
    rcases hdue with ⟨p, hp, hlt⟩ | hleft
    · left
      rw [hpid] at hlt
      simp [Look.ofLaterTemplate, htemplate, hp, hlt]
    · exact .inr hleft

/-- The lowest template never rises. -/
theorem low_le {p : UInt32} (hp : c.earliestTemplate = some p) : ∃ q, low = some q ∧ q ≤ p := by
  cases h with
  | known hdue => exact ⟨p, hp, UInt32.le_refl p⟩
  | first he => exact lowestAfter_le hp
  | retry hallow hfailed hleft he => exact lowestAfter_le hp
  | check hallow hsettled htemplate hdue he => exact ⟨p, hp, UInt32.le_refl p⟩

/-- A new lowest template is the process, which is a template now. -/
theorem low_eq_some (hpid : e.pid = pid) {p : UInt32} (hp : low = some p) :
    c.earliestTemplate = some p ∨ (p = pid ∧ e.isTemplate = true) := by
  subst hpid
  cases h with
  | known hdue => exact .inl hp
  | first he => exact lowestAfter_eq_some hp
  | retry hallow hfailed hleft he => exact lowestAfter_eq_some hp
  | check hallow hsettled htemplate hdue he => exact .inl hp

/-- If the process is a template now, it was one before or a full load has shown it. -/
theorem template_cases
    (hfailed : ∀ e₀, known = some e₀ → e₀.loadFailed = true → e₀.isTemplate = false)
    (he : e.isTemplate = true) :
    (∃ e₀, known = some e₀ ∧ e₀.isTemplate = true ∧ low = c.earliestTemplate) ∨
      ∃ m, m.complete = true ∧ low = lowestAfter c.earliestTemplate e m := by
  cases h with
  | known hdue => exact .inl ⟨_, rfl, he, rfl⟩
  | @first e m heq =>
    right
    cases hm : m.complete with
    | true => exact ⟨m, hm, rfl⟩
    | false =>
      rw [heq, Identity.settleLoad_of_incomplete _ _ hm] at he
      cases he
  | @retry e₀ e m hallow hf hleft heq =>
    right
    cases hm : m.complete with
    | true => exact ⟨m, hm, rfl⟩
    | false =>
      rw [heq, Identity.settleLoad_of_incomplete _ _ hm] at he
      rw [hfailed e₀ rfl hf] at he
      cases he
  | check hallow hsettled htemplate hdue heq => exact .inl ⟨_, rfl, htemplate, rfl⟩

/-- A known process keeps its mode, and its budgets do not grow. -/
theorem ages {e₀ : Identity} (hknown : known = some e₀) : e₀.AgesTo e := by
  subst hknown
  cases h with
  | known hdue => exact .refl _
  | @retry e₀ e m hallow hfailed hleft he =>
    have hspent : e₀.AgesTo { e₀ with loadChecks := e₀.loadChecks - 1 } :=
      ⟨rfl, Nat.sub_le _ _, Nat.le_refl _⟩
    exact he ▸ hspent.trans (Identity.ages_settleLoad _ m _)
  | @check e₀ e m hallow hsettled htemplate hdue he => exact he ▸ Identity.ages_settleCheck e₀ m _

end Outcome

variable [MetadataLoader l]

/-- The entries of a cache are what comes of all looks so far, and no template is below the lowest
one. -/
structure Accounted (c : IdentityCache l) (past : List Look) : Prop where
  keyed : c.Keyed
  unseen : ∀ pid, c.get? pid = none → looksAt pid past = []
  entries : ∀ pid e, c.get? pid = some e → e.Accounts c.checks (looksAt pid past)
  lowest : ∀ pid e, c.get? pid = some e → e.isTemplate = true →
    ∃ p, c.earliestTemplate = some p ∧ p ≤ pid

namespace Accounted

variable {c : IdentityCache l} {past : List Look}

omit [MetadataLoader l] in
theorem new (loader : l) (templateName : String) (checks : Nat) :
    (IdentityCache.new loader templateName checks).Accounted [] where
  keyed := fun pid e h => by cases h
  unseen := fun pid h => rfl
  entries := fun pid e h => by cases h
  lowest := fun pid e h => by cases h

theorem resolve (h : c.Accounted past) (pid : UInt32) (allow : Bool) :
    (c.resolve pid allow).2.Accounted (past ++ c.looks pid allow) := by
  obtain ⟨shown, e, low, houtcome, hlooks, -, hself, hlow⟩ := resolve_outcome h.keyed pid allow
  have hkeyed := h.keyed.resolve pid allow
  have hother : ∀ q, q ≠ pid → (c.resolve pid allow).2.get? q = c.get? q ∧
      looksAt q (past ++ c.looks pid allow) = looksAt q past := by
    intro q hq
    refine ⟨get?_resolve_of_ne h.keyed hq allow, ?_⟩
    rw [looksAt_append, looksAt_looks h.keyed, if_neg hq, List.append_nil]
  have hown : looksAt pid (past ++ c.looks pid allow) = looksAt pid past ++
      shown.toList.map (⟨pid, c.get? pid, c.earliestTemplate, ·⟩) := by
    rw [looksAt_append, looksAt_looks h.keyed, if_pos rfl, hlooks]
  refine ⟨hkeyed, fun q hq => ?_, fun q e' hq => ?_, fun q e' hq htemplate => ?_⟩
  · by_cases hqp : q = pid
    · rw [hqp, hself] at hq
      cases hq
    · rw [(hother q hqp).2]
      exact h.unseen q ((hother q hqp).1 ▸ hq)
  · rw [checks_resolve]
    by_cases hqp : q = pid
    · rw [hqp, hself, Option.some.injEq] at hq
      rw [hqp, hown, ← hq]
      exact houtcome.accounts (h.unseen pid) fun e₀ hget =>
        ⟨h.keyed pid e₀ hget, h.entries pid e₀ hget⟩
    · rw [(hother q hqp).2]
      exact h.entries q e' ((hother q hqp).1 ▸ hq)
  · rw [hlow]
    by_cases hqp : q = pid
    · rw [hqp, hself, Option.some.injEq] at hq
      subst hq hqp
      have hpid := hkeyed q e hself
      rcases houtcome.template_cases (fun e₀ hget hf => ((h.entries q e₀ hget).failed hf).1)
        htemplate with ⟨e₀, hget, htemplate₀, hsame⟩ | ⟨m, hm, hlowest⟩
      · rw [hsame]
        exact h.lowest q e₀ hget htemplate₀
      · rw [hlowest, ← hpid]
        exact lowestAfter_of_template hm htemplate
    · obtain ⟨p, hp, hle⟩ := h.lowest q e' ((hother q hqp).1 ▸ hq) htemplate
      obtain ⟨p', hp', hle'⟩ := houtcome.low_le hp
      exact ⟨p', hp', UInt32.le_trans hle' hle⟩

theorem resolveAll (h : c.Accounted past) (calls : List (UInt32 × Bool)) :
    (c.resolveAll calls).Accounted (past ++ c.history calls) :=
  history_induction (fun _ _ pid allow h => h.resolve pid allow) h calls

end Accounted

/-! ## Series of look-ups -/

section
variable {c : IdentityCache l} (hc : c.Keyed)
include hc

/-- A known process stays known; it keeps its mode, and its budgets do not grow. -/
theorem ages_resolveAll {pid : UInt32} {e : Identity} (hget : c.get? pid = some e)
    (calls : List (UInt32 × Bool)) :
    ∃ e', (c.resolveAll calls).get? pid = some e' ∧ e.AgesTo e' := by
  induction calls generalizing c e with
  | nil => exact ⟨e, hget, .refl e⟩
  | cons call calls ih =>
    obtain ⟨q, allow⟩ := call
    obtain ⟨shown, e₁, low, houtcome, -, -, hself, -⟩ := resolve_outcome hc q allow
    by_cases hq : pid = q
    · subst hq
      obtain ⟨e', hget', hages⟩ := ih (hc.resolve pid allow) hself
      exact ⟨e', hget', (houtcome.ages hget).trans hages⟩
    · exact ih (hc.resolve q allow) ((get?_resolve_of_ne hc hq allow).trans hget)

theorem earliestTemplate_resolveAll_le {p : UInt32} (hp : c.earliestTemplate = some p)
    (calls : List (UInt32 × Bool)) :
    ∃ q, (c.resolveAll calls).earliestTemplate = some q ∧ q ≤ p := by
  induction calls generalizing c p with
  | nil => exact ⟨p, hp, UInt32.le_refl p⟩
  | cons call calls ih =>
    obtain ⟨shown, e, low, houtcome, -, -, -, hlow⟩ := resolve_outcome hc call.1 call.2
    obtain ⟨p₁, hp₁, hle₁⟩ := houtcome.low_le hp
    obtain ⟨q, hq, hle⟩ := ih (hc.resolve call.1 call.2) (hlow.trans hp₁)
    exact ⟨q, hq, UInt32.le_trans hle hle₁⟩

/-- An entry for which nothing can become due stays as it is, and its process is not looked at. -/
theorem resolveAll_of_never_due {pid : UInt32} {e : Identity} (hget : c.get? pid = some e)
    (hdue : ∀ earliest, ¬e.Due earliest) (calls : List (UInt32 × Bool)) :
    (c.resolveAll calls).get? pid = some e ∧ looksAt pid (c.history calls) = [] := by
  induction calls generalizing c with
  | nil => exact ⟨hget, rfl⟩
  | cons call calls ih =>
    obtain ⟨q, allow⟩ := call
    have hstep : (c.resolve q allow).2.get? pid = some e ∧ looksAt pid (c.looks q allow) = [] := by
      rw [looksAt_looks hc]
      by_cases hq : pid = q
      · subst hq
        have hstill : allow = true → e.pending c.earliestTemplate = .none :=
          fun _ => Identity.pending_eq_none_iff.2 (hdue _)
        rw [resolve_still hget hstill, looks_still hget hstill]
        exact ⟨hget, ite_self _⟩
      · rw [if_neg hq, get?_resolve_of_ne hc hq]
        exact ⟨hget, rfl⟩
    obtain ⟨hget', hlooks⟩ := ih (hc.resolve q allow) hstep.1
    refine ⟨hget', ?_⟩
    rw [history, looksAt_append, hstep.2, hlooks]
    rfl

end

/-- A process that was taken for a template at some time in the course of look-ups. -/
def WasTemplate (c : IdentityCache l) (calls : List (UInt32 × Bool)) (pid : UInt32) : Prop :=
  ∃ before after e, calls = before ++ after ∧ (c.resolveAll before).get? pid = some e ∧
    e.isTemplate = true

/-- The lowest template is one from the beginning or was taken for one since. -/
theorem wasTemplate_of_earliestTemplate {c : IdentityCache l} (hc : c.Keyed)
    {calls : List (UInt32 × Bool)} {p : UInt32}
    (hp : (c.resolveAll calls).earliestTemplate = some p) :
    c.earliestTemplate = some p ∨ c.WasTemplate calls p := by
  -- by induction the lowest template comes from the rest, or from the first look-up
  induction calls generalizing c with
  | nil => exact .inl hp
  | cons call calls ih =>
    obtain ⟨q, allow⟩ := call
    obtain ⟨shown, e, low, houtcome, -, -, hself, hlow⟩ := resolve_outcome hc q allow
    have hkeyed := hc.resolve q allow
    rcases ih hkeyed hp with hfirst | ⟨before, after, e', rfl, hget, htemplate⟩
    · rcases houtcome.low_eq_some (hkeyed q e hself) (hlow ▸ hfirst) with hold | ⟨rfl, htemplate⟩
      · exact .inl hold
      · exact .inr ⟨[(p, allow)], calls, e, rfl, hself, htemplate⟩
    · exact .inr ⟨(q, allow) :: before, after, e', rfl, hget, htemplate⟩

/-- **The rules of re-checking.**  Whatever a loader shows and in whatever order processes are
looked up, every entry is what comes of the looks at its process: the first look fixes its mode, a
failed load leaves it no template with all its template checks, and one that succeeds leaves it no
load checks, and template checks only if it is a template.  The lowest template is the lowest
process that was ever taken for one.  From then on modes stay, budgets do not grow, the lowest
template does not rise, final entries are neither looked at again nor changed, and a look-up changes
the entry of its process alone. -/
theorem resolveAll_keeps_rules (loader : l) (templateName : String) (checks : Nat)
    (calls : List (UInt32 × Bool)) :
    ∃ c past, (IdentityCache.new loader templateName checks).resolveAll calls = c ∧
      (IdentityCache.new loader templateName checks).history calls = past ∧
      (∀ pid e, c.get? pid = some e → e.Accounts checks (looksAt pid past)) ∧
      (∀ p, c.earliestTemplate = some p →
        (IdentityCache.new loader templateName checks).WasTemplate calls p) ∧
      (∀ pid, (IdentityCache.new loader templateName checks).WasTemplate calls pid →
        ∃ p, c.earliestTemplate = some p ∧ p ≤ pid) ∧
      (∀ pid e, c.get? pid = some e → e.isTemplate = true →
        ∃ p, c.earliestTemplate = some p ∧ p ≤ pid) ∧
      (∀ later p, c.earliestTemplate = some p →
        ∃ q, (c.resolveAll later).earliestTemplate = some q ∧ q ≤ p) ∧
      (∀ later pid e, c.get? pid = some e →
        (∃ e', (c.resolveAll later).get? pid = some e' ∧ e.AgesTo e') ∧
          (e.Final → (c.resolveAll later).get? pid = some e ∧
            looksAt pid (c.history later) = [])) ∧
      (∀ pid allow q, q ≠ pid → (c.resolve pid allow).2.get? q = c.get? q) := by
  have hnew := Accounted.new loader templateName checks
  have hacc := hnew.resolveAll calls
  rw [List.nil_append] at hacc
  have hchecks :
      ((IdentityCache.new loader templateName checks).resolveAll calls).checks = checks := by
    rw [checks_resolveAll]
    rfl
  refine ⟨_, _, rfl, rfl, ?_, ?_, ?_, hacc.lowest, ?_, ?_, ?_⟩
  · intro pid e hget
    have := hacc.entries pid e hget
    rwa [hchecks] at this
  · intro p hp
    rcases wasTemplate_of_earliestTemplate hnew.keyed hp with hnone | hwas
    · cases hnone
    · exact hwas
  · rintro pid ⟨before, after, e, rfl, hget, htemplate⟩
    have hbefore := hnew.resolveAll before
    obtain ⟨p, hp, hle⟩ := hbefore.lowest pid e hget htemplate
    obtain ⟨q, hq, hle'⟩ := earliestTemplate_resolveAll_le hbefore.keyed hp after
    rw [resolveAll_append]
    exact ⟨q, hq, UInt32.le_trans hle' hle⟩
  · intro later p hp
    exact earliestTemplate_resolveAll_le hacc.keyed hp later
  · intro later pid e hget
    refine ⟨ages_resolveAll hacc.keyed hget later, fun hfinal => ?_⟩
    exact resolveAll_of_never_due hacc.keyed hget (hfinal.not_due (hacc.entries pid e hget)) later
  · intro pid allow q hq
    exact get?_resolve_of_ne hacc.keyed hq allow

end IdentityCache

end CounterTrace
