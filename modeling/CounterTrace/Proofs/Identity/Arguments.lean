import CounterTrace.Identity.ProcessTable
import CounterTrace.Proofs.Identity.Looking
import CounterTrace.Proofs.Text.Parts
import CounterTrace.Proofs.Text.Utf8
import Mathlib.Data.List.TakeWhile

/-!
# Arguments

A process table joins the arguments of a process with blanks, and the cache takes the first word of
what it is shown for the name of the program.  Where the first argument ends is lost on the way.

    joinArguments of the arguments, each ended by NUL
        = the arguments with a blank between each two          (joinArguments_argumentBytes)
    programName of these = programName of the first            (programName_intercalate)

So a process counts as a template if the template name is its first argument, or stands there in
front of a blank; and a template name with a blank in it is never found
                                                               (isTemplate_iff_first_argument).
-/

namespace CounterTrace

/-! ## The command line -/

/-- The file of arguments: each is ended by NUL. -/
def argumentBytes (args : List String) : List UInt8 := args.flatMap fun arg => Utf8.encode arg ++ [0]

/-- An argument that stands in such a file as one. -/
def IsArgument (arg : String) : Prop := arg ≠ "" ∧ '\x00' ∉ arg.toList

instance : DecidablePred IsArgument := fun _ => inferInstanceAs (Decidable (_ ∧ _))

theorem argumentBytes_eq_encode (args : List String) :
    argumentBytes args = Utf8.encode (String.join (args.map (· ++ "\x00"))) := by
  have hnul : Utf8.encode "\x00" = [0] := by decide
  induction args with
  | nil => rfl
  | cons arg args ih =>
    rw [List.map_cons, String.join_cons, Utf8.encode_append, Utf8.encode_append, ← ih, hnul]
    rfl

theorem ProcessTable.joinArguments_argumentBytes {args : List String}
    (h : ∀ arg ∈ args, IsArgument arg) :
    joinArguments (argumentBytes args) = " ".intercalate args := by
  have hcut : Text.splitOn '\x00' (String.join (args.map (· ++ "\x00"))).toList =
      args.map String.toList ++ [[]] := by
    have hparts : (String.join (args.map (· ++ "\x00"))).toList =
        (args.map String.toList).flatMap (· ++ ['\x00']) ++ [] := by
      simp [String.toList_join, List.flatMap_map]
    rw [hparts]
    refine Text.splitOn_ended (fun part hpart => ?_) []
    obtain ⟨arg, harg, rfl⟩ := List.mem_map.1 hpart
    exact (h arg harg).2
  have hkept : (args.map String.toList ++ [[]]).filter (!·.isEmpty) = args.map String.toList := by
    have hall : ∀ part ∈ args.map String.toList, (!part.isEmpty) = true := by
      intro part hpart
      obtain ⟨arg, harg, rfl⟩ := List.mem_map.1 hpart
      simpa using (h arg harg).1
    rw [List.filter_append, List.filter_eq_self.2 hall]
    exact List.append_nil _
  apply String.toList_inj.1
  rw [joinArguments, argumentBytes_eq_encode, Utf8.decodeLenient_encode, hcut, hkept,
    String.toList_ofList, String.toList_intercalate]
  rfl

/-! ## The name of the program -/

/-- The name goes up to the first blank. -/
theorem programName_eq_iff {cmdline : String} {name : List Char} :
    programName cmdline = name ↔
      ' ' ∉ name ∧ (cmdline.toList = name ∨ ∃ rest, cmdline.toList = name ++ ' ' :: rest) := by
  have hsplit := List.takeWhile_append_dropWhile (p := (· != ' ')) (l := cmdline.toList)
  constructor
  · rintro rfl
    refine ⟨fun hmem => ?_, ?_⟩
    · have hblank := List.all_eq_true.1 List.all_takeWhile _ hmem
      exact absurd hblank (by decide)
    · cases hrest : cmdline.toList.dropWhile (· != ' ') with
      | nil =>
        rw [hrest, List.append_nil] at hsplit
        exact .inl hsplit.symm
      | cons c rest =>
        have hc := List.head?_dropWhile_not (· != ' ') cmdline.toList
        rw [hrest] at hc hsplit
        obtain rfl : c = ' ' := by simpa using hc
        exact .inr ⟨rest, hsplit.symm⟩
  · rintro ⟨hname, hline⟩
    have hall : ∀ c ∈ name, (c != ' ') = true := fun c hc =>
      bne_iff_ne.2 fun heq => hname (heq ▸ hc)
    rcases hline with hline | ⟨rest, hline⟩
    · rw [programName, hline]
      exact List.takeWhile_eq_self_iff.2 hall
    · rw [programName, hline, List.takeWhile_append_of_pos hall,
        List.takeWhile_cons_of_neg (by decide), List.append_nil]

theorem programName_eq_toList_iff {cmdline name : String} :
    programName cmdline = name.toList ↔
      ' ' ∉ name.toList ∧ (cmdline = name ∨ ∃ rest, cmdline = name ++ " " ++ rest) := by
  have hrest : (∃ rest, cmdline.toList = name.toList ++ ' ' :: rest) ↔
      ∃ rest, cmdline = name ++ " " ++ rest := by
    constructor
    · rintro ⟨rest, h⟩
      refine ⟨String.ofList rest, String.toList_inj.1 (h.trans ?_)⟩
      simp
    · rintro ⟨rest, rfl⟩
      exact ⟨rest.toList, by simp⟩
  rw [programName_eq_iff, String.toList_inj, hrest]

/-- Later arguments have no part in it. -/
theorem programName_intercalate (first : String) (others : List String) :
    programName (" ".intercalate (first :: others)) = programName first := by
  cases others with
  | nil => rw [String.intercalate_singleton]
  | cons next others =>
    obtain ⟨hname, hfirst⟩ := programName_eq_iff.1 (rfl : programName first = programName first)
    have hline : (" ".intercalate (first :: next :: others)).toList =
        first.toList ++ ' ' :: (" ".intercalate (next :: others)).toList := by
      rw [String.intercalate_cons_cons, String.append_assoc, String.toList_append,
        String.toList_append]
      rfl
    refine programName_eq_iff.2 ⟨hname, .inr ?_⟩
    rw [hline]
    rcases hfirst with heq | ⟨rest, heq⟩
    · exact ⟨_, by rw [heq]⟩
    · exact ⟨rest ++ ' ' :: (" ".intercalate (next :: others)).toList, by
        rw [heq, List.append_assoc, List.cons_append]⟩

/-- The name is the first argument up to its first blank. -/
theorem programName_arguments_iff (args : List String) {name : String} (hname : name ≠ "") :
    programName (" ".intercalate args) = name.toList ↔
      ' ' ∉ name.toList ∧ ∃ first, args.head? = some first ∧
        (first = name ∨ ∃ rest, first = name ++ " " ++ rest) := by
  cases args with
  | nil =>
    have hempty : programName "" ≠ name.toList := fun h => hname (String.toList_inj.1 h.symm)
    simp [hempty]
  | cons first others =>
    rw [programName_intercalate, programName_eq_toList_iff]
    simp

/-! ## The first look -/

/-- A table shows a process with these arguments and this executable. -/
def ProcessTable.Shows (t : ProcessTable) (pid : UInt32) (args : List String)
    (executable : List UInt8) : Prop :=
  t.directories.lookup (toString pid) = some ⟨some (argumentBytes args), some executable⟩

theorem ProcessTable.look_of_shows {t : ProcessTable} {pid : UInt32} {args : List String}
    {executable : List UInt8} (h : t.Shows pid args executable)
    (hargs : ∀ arg ∈ args, IsArgument arg) :
    t.look pid = ⟨" ".intercalate args, Utf8.decodeLenient executable, true⟩ := by
  have hfiles : t.directories.lookup (toString pid) = _ := h
  simp only [look, hfiles, Option.getD_some, Option.elim_some, joinArguments_argumentBytes hargs,
    Option.isSome_some, Bool.and_self]

namespace IdentityCache

variable {c : IdentityCache ProcessTable} {pid : UInt32} {args : List String}
  {executable : List UInt8} {allow : Bool}

theorem isTemplate_iff_programName (hnew : c.get? pid = none)
    (hargs : ∀ arg ∈ args, IsArgument arg) (hshows : c.loader.Shows pid args executable) :
    (c.resolve pid allow).1.isTemplate = true ↔
      programName (" ".intercalate args) = c.templateName.toList := by
  have hload : (c.load pid).1 = c.loader.look pid := rfl
  have hlook := ProcessTable.look_of_shows hshows hargs
  have hname : (c.load pid).2.templateName = c.templateName := rfl
  rw [resolve_first hnew, settle, hload, hlook, Identity.settleLoad_of_complete _ _ rfl, hname]
  exact beq_iff_eq

/-- **When a process counts as a template.**  A process whose arguments and executable can be read is
looked at for the first time.  It counts as a template if and only if the template name has no blank
and is the first argument, up to its first blank if there is one.  This is not the same as being the
first argument in two cases: the first argument is a template name with a blank, or it is one
without, followed by a blank. -/
theorem isTemplate_iff_first_argument (hnew : c.get? pid = none)
    (hargs : ∀ arg ∈ args, IsArgument arg) (hshows : c.loader.Shows pid args executable)
    (htemplate : c.templateName ≠ "") :
    ((c.resolve pid allow).1.isTemplate = true ↔
      ' ' ∉ c.templateName.toList ∧ ∃ first, args.head? = some first ∧
        (first = c.templateName ∨ ∃ rest, first = c.templateName ++ " " ++ rest)) ∧
    (((c.resolve pid allow).1.isTemplate = true ↔ args.head? = some c.templateName) ↔
      ¬(' ' ∈ c.templateName.toList ∧ args.head? = some c.templateName) ∧
      ¬(' ' ∉ c.templateName.toList ∧
        ∃ rest, args.head? = some (c.templateName ++ " " ++ rest))) := by
  have hfirst : (c.resolve pid allow).1.isTemplate = true ↔ _ :=
    (isTemplate_iff_programName hnew hargs hshows).trans (programName_arguments_iff args htemplate)
  have hlonger : ∀ rest, c.templateName ≠ c.templateName ++ " " ++ rest := by
    intro rest h
    have hlength := congrArg String.length h
    have hblank : " ".length = 1 := rfl
    simp only [String.length_append] at hlength
    omega
  refine ⟨hfirst, ?_⟩
  rw [hfirst]
  cases args with
  | nil => simp
  | cons first others =>
    simp only [List.head?_cons, Option.some.injEq, exists_eq_left']
    by_cases hblank : ' ' ∈ c.templateName.toList
    · simp [hblank]
    · by_cases heq : first = c.templateName
      · subst heq
        simp [hblank, hlonger]
      · simp [hblank, heq]

/-- A cache in front of process 7 alone. -/
def beforeSeven (args : List String) (template : String) : IdentityCache ProcessTable :=
  new ⟨[("7", ⟨some (argumentBytes args), some (Utf8.encode "/system/bin/app_process")⟩)]⟩ template
    10

theorem shows_seven (args : List String) (template : String) :
    (beforeSeven args template).loader.Shows 7 args (Utf8.encode "/system/bin/app_process") := rfl

theorem isTemplate_iff_first_argument_zygote :
    ((beforeSeven ["zygote", "--start"] "zygote").resolve 7 true).1.isTemplate = true :=
  (isTemplate_iff_first_argument rfl (by decide) (shows_seven _ "zygote") (by decide)).1.2
    ⟨by decide, "zygote", rfl, .inl rfl⟩

/-- The first argument is the template name and is not found; the first argument is not the template
name and is taken for it. -/
theorem blank_misleads_first_look :
    ((beforeSeven ["app server"] "app server").resolve 7 true).1.isTemplate = false ∧
      ((beforeSeven ["zygote "] "zygote").resolve 7 true).1.isTemplate = true := by
  constructor
  · refine Bool.eq_false_iff.2 fun h => ?_
    have hname := (isTemplate_iff_programName rfl (by decide) (shows_seven _ _)).1 h
    rw [programName_intercalate] at hname
    exact absurd hname (by decide)
  · refine (isTemplate_iff_programName rfl (by decide) (shows_seven _ _)).2 ?_
    rw [programName_intercalate]
    decide

end IdentityCache

end CounterTrace
