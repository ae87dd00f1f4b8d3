import DartNodes.Output.Dispatcher
import DartNodes.Proofs.Text.Words
import DartNodes.Text.Lines
import Mathlib.Data.List.Basic

/-! Reading the text of a dispatcher. Only the names of the target have to be known for it: a tag and a
class name end where the word ends that they stand in. -/
namespace DartNodes.Dispatcher

/-- The text of a dispatcher. -/
def code (target : Target) (d : Dispatcher) : Text := Text.unlines (d.lines target)

/-- What all branches start with. -/
def opening (target : Target) : Text :=
  "  if (" ++ target.tagField ++ " == " ++ target.enumConstant []

/-- The first word without its ending, and what stands behind the word. -/
def readWord? (ending t : Text) : Option (Text × Text) := do
  let word ← (t.takeWhile (!Text.isBlank ·)).dropSuffix? ending
  return (word, t.dropWhile (!Text.isBlank ·))

/-- The first branch, and what stands behind its line. -/
def readBranch? (target : Target) (t : Text) : Option ((Text × Text) × Text) := do
  let (tag, t) ← readWord? ")" (← t.dropPrefix? (opening target))
  let (className, t) ← readWord? "();" (← t.dropPrefix? " return ".toList)
  return ((target.enumConstant tag, className), ← t.dropPrefix? ['\n'])

/-- A branch that makes an object of a class for a tag. -/
def Readable (target : Target) (branch : Text × Text) : Prop :=
  (∃ tag : Text, branch.1 = target.enumConstant tag ∧ ∀ c ∈ tag, Text.isBlank c = false) ∧
    ∀ c ∈ branch.2, Text.isBlank c = false

lemma dropPrefix?_eq_some {t front rest : Text} :
    t.dropPrefix? front = some rest ↔ t = front ++ rest := by
  simp [List.dropPrefix?_eq_some_iff]

lemma dropSuffix?_eq_some {t ending front : Text} :
    t.dropSuffix? ending = some front ↔ t = front ++ ending := by
  simp [List.dropSuffix?_eq_some_iff]

lemma readWord?_eq_some {ending t word rest : Text} :
    readWord? ending t = some (word, rest) ↔
      t = word ++ ending ++ rest ∧ (∀ c ∈ word ++ ending, Text.isBlank c = false) ∧
        Text.EndsWord rest := by
  simp only [readWord?, Option.bind_eq_bind, Option.bind_eq_some_iff, dropSuffix?_eq_some,
    Option.pure_def, Option.some.injEq, Prod.mk.injEq]
  constructor
  · rintro ⟨found, hword, rfl, rfl⟩
    refine ⟨?_, fun c hc => ?_, Text.endsWord_dropWhile t⟩
    · rw [← hword, List.takeWhile_append_dropWhile]
    · rw [← hword] at hc
      simpa using List.mem_takeWhile_imp hc
  · rintro ⟨rfl, hblank, hrest⟩
    exact ⟨word, Text.takeWhile_word hblank hrest, rfl, Text.dropWhile_word hblank hrest⟩

lemma enumConstant_append (target : Target) (tag : Text) :
    target.enumConstant [] ++ tag = target.enumConstant tag := by
  simp [Target.enumConstant]

lemma branchLine_eq (target : Target) (tag className : Text) :
    branchLine target (target.enumConstant tag, className) =
      opening target ++ (tag ++ ")" ++ (" return ".toList ++ (className ++ "();"))) := by
  unfold branchLine opening
  rw [← enumConstant_append target tag]
  simp

lemma blankless_append {v ending : Text} (hv : ∀ c ∈ v, Text.isBlank c = false)
    (hending : ending.all (!Text.isBlank ·) = true) : ∀ c ∈ v ++ ending, Text.isBlank c = false := by
  intro c hc
  rcases List.mem_append.mp hc with hc | hc
  · exact hv c hc
  · simpa using List.all_eq_true.mp hending c hc

/-- A branch is read exactly from its own line. -/
theorem readBranch?_eq_some {target : Target} {t rest : Text} {branch : Text × Text} :
    readBranch? target t = some (branch, rest) ↔
      Readable target branch ∧ t = branchLine target branch ++ '\n' :: rest := by
  simp only [readBranch?, Option.bind_eq_bind, Option.bind_eq_some_iff, Option.pure_def,
    Option.some.injEq, Prod.mk.injEq, Prod.exists, dropPrefix?_eq_some, readWord?_eq_some]
  constructor
  · rintro ⟨_, rfl, tag, _, ⟨rfl, htag, -⟩, _, rfl, className, _, ⟨rfl, hclass, -⟩, _, rfl, rfl, rfl⟩
    refine ⟨⟨⟨tag, rfl, fun c hc => htag c (List.mem_append_left _ hc)⟩,
      fun c hc => hclass c (List.mem_append_left _ hc)⟩, ?_⟩
    rw [branchLine_eq]
    simp only [List.append_assoc, List.singleton_append]
  · rintro ⟨⟨⟨tag, hconstant, htag⟩, hclass⟩, rfl⟩
    obtain ⟨constant, className⟩ := branch
    obtain rfl : constant = target.enumConstant tag := hconstant
    refine ⟨tag ++ ")" ++ (" return ".toList ++ (className ++ "();" ++ '\n' :: rest)), ?_, tag, _,
      ⟨rfl, ?_, ?_⟩, _, rfl, className, _, ⟨rfl, ?_, ?_⟩, _, rfl, rfl, rfl⟩
    · rw [branchLine_eq]
      simp only [List.append_assoc]
    · exact blankless_append htag (by decide)
    · exact Text.endsWord_cons (by decide) _
    · exact blankless_append hclass (by decide)
    · exact Text.endsWord_cons (by decide) _

lemma length_lt_of_readBranch? {target : Target} {t rest : Text} {branch : Text × Text}
    (h : readBranch? target t = some (branch, rest)) : rest.length < t.length := by
  obtain ⟨-, rfl⟩ := readBranch?_eq_some.mp h
  rw [List.length_append, List.length_cons]
  omega

/-- The branches that a text starts with, and what stands behind them. -/
def readBranches (target : Target) (t : Text) : List (Text × Text) × Text :=
  match h : readBranch? target t with
  | none => ([], t)
  | some (branch, rest) =>
    have : rest.length < t.length := length_lt_of_readBranch? h
    let (branches, last) := readBranches target rest
    (branch :: branches, last)
termination_by t.length

/-- What stands behind the last class name. -/
def closing : Text := "();\n\x7d\n"

/-- The dispatcher that a text spells. -/
def read? (target : Target) (t : Text) : Option Dispatcher := do
  let (branches, last) := readBranches target (← t.dropPrefix? (headLine target ++ ['\n']))
  let fallback ← (← last.dropPrefix? "  return ".toList).dropSuffix? closing
  return ⟨branches, fallback⟩

lemma readBranch?_return (target : Target) (t : Text) :
    readBranch? target ("  return ".toList ++ t) = none := by
  rw [Option.eq_none_iff_forall_ne_some]
  rintro ⟨branch, rest⟩ h
  obtain ⟨-, heq⟩ := readBranch?_eq_some.mp h
  unfold branchLine at heq
  simp at heq

lemma readBranches_eq_nil {target : Target} {t last : Text} :
    readBranches target t = ([], last) ↔ t = last ∧ readBranch? target t = none := by
  rw [readBranches]
  split <;> simp_all

lemma readBranches_eq_cons {target : Target} {t last : Text} {branch : Text × Text}
    {branches : List (Text × Text)} :
    readBranches target t = (branch :: branches, last) ↔ ∃ rest,
      readBranch? target t = some (branch, rest) ∧ readBranches target rest = (branches, last) := by
  rw [readBranches]
  split
  · simp_all
  · rename_i found rest hfound
    simp [hfound, Prod.ext_iff, and_assoc]

/-- The branches that are read are those that the text starts with, and no branch stands behind them. -/
theorem readBranches_eq {target : Target} {t last : Text} {branches : List (Text × Text)} :
    readBranches target t = (branches, last) ↔
      t = Text.unlines (branches.map (branchLine target)) ++ last ∧
        (∀ branch ∈ branches, Readable target branch) ∧ readBranch? target last = none := by
  induction branches generalizing t with
  | nil =>
    rw [readBranches_eq_nil]
    constructor
    · rintro ⟨rfl, hnone⟩
      exact ⟨rfl, by simp, hnone⟩
    · rintro ⟨rfl, -, hnone⟩
      exact ⟨rfl, hnone⟩
  | cons branch branches ih =>
    simp only [readBranches_eq_cons, readBranch?_eq_some, ih, List.forall_mem_cons, List.map_cons,
      Text.unlines_cons, List.append_assoc, List.cons_append]
    constructor
    · rintro ⟨_, ⟨hbranch, rfl⟩, rfl, hbranches, hlast⟩
      exact ⟨rfl, ⟨hbranch, hbranches⟩, hlast⟩
    · rintro ⟨rfl, ⟨hbranch, hbranches⟩, hlast⟩
      exact ⟨_, ⟨hbranch, rfl⟩, rfl, hbranches, hlast⟩

lemma code_eq (target : Target) (d : Dispatcher) :
    d.code target = headLine target ++ ['\n'] ++
      (Text.unlines (d.branches.map (branchLine target)) ++
        ("  return ".toList ++ (d.fallback ++ closing))) := by
  have hlast : Text.unlines ["  return ".toList ++ d.fallback ++ "();", "\x7d"] =
      "  return ".toList ++ (d.fallback ++ closing) := by
    rw [Text.unlines_cons, Text.unlines_cons, Text.unlines_nil, List.append_assoc, List.append_assoc]
    rfl
  rw [code, lines, List.cons_append, Text.unlines_cons, Text.unlines_append, hlast,
    List.append_assoc, List.singleton_append]

/-- A dispatcher is read exactly from its own text. -/
theorem read?_eq_some {target : Target} {t : Text} {d : Dispatcher} :
    read? target t = some d ↔
      t = d.code target ∧ ∀ branch ∈ d.branches, Readable target branch := by
  simp only [read?, Option.bind_eq_bind, Option.bind_eq_some_iff, Option.pure_def,
    Option.some.injEq, dropPrefix?_eq_some, dropSuffix?_eq_some]
  constructor
  · rintro ⟨body, rfl, last, hlast, fallback, rfl, rfl⟩
    obtain ⟨hbody, hbranches, -⟩ := readBranches_eq.mp (Prod.eta (readBranches target body)).symm
    refine ⟨?_, hbranches⟩
    rw [code_eq, ← hlast, ← hbody]
  · rintro ⟨rfl, hbranches⟩
    have hread := readBranches_eq.mpr ⟨rfl, hbranches, readBranch?_return target (d.fallback ++ closing)⟩
    refine ⟨_, code_eq target d, _, ?_, d.fallback, rfl, ?_⟩
    · rw [hread]
    · rw [hread]

end DartNodes.Dispatcher
