import Handover.Proofs.Success
import Mathlib.Data.List.Basic

/-!
# Computations that report the first fault

A computation reports a list of faults if it succeeds where the list is empty and fails
with its first entry otherwise.  What is wrong can then be listed part by part, without
regard to what else is wrong, and the parts are joined by concatenation.
-/

namespace Handover

variable {ε ε' ρ τ : Type}

/-- The computation fails with the first of these faults, or succeeds if there is none. -/
def Reports : Except ε τ → List ε → Prop
  | .ok _, faults => faults = []
  | .error fault, faults => faults.head? = some fault

/-- A fault, unless a condition holds. -/
def faultUnless (holds : Prop) [Decidable holds] (fault : ε) : List ε :=
  if holds then [] else [fault]

@[simp]
theorem faultUnless_eq_nil {holds : Prop} [Decidable holds] {fault : ε} :
    faultUnless holds fault = [] ↔ holds := by
  simp [faultUnless]

namespace Reports

variable {first : Except ε ρ} {next : ρ → Except ε τ} {result : Except ε τ} {faults others : List ε}

theorem error_iff (reports : Reports result faults) {fault : ε} :
    result = .error fault ↔ faults.head? = some fault := by
  cases result with
  | ok value =>
      cases (reports : faults = [])
      simp
  | error found =>
      rw [(reports : faults.head? = some found)]
      simp

theorem exists_ok_iff (reports : Reports result faults) :
    (∃ value, result = .ok value) ↔ faults = [] := by
  cases result with
  | ok value => exact iff_of_true ⟨value, rfl⟩ reports
  | error fault =>
      constructor
      · rintro ⟨value, ⟨⟩⟩
      · rintro rfl
        cases reports

theorem ok (value : τ) : Reports (.ok value : Except ε τ) [] :=
  rfl

/-- What comes later is looked at only if nothing was wrong before. -/
theorem bind (here : Reports first faults)
    (later : ∀ value, first = .ok value → Reports (next value) others) :
    Reports (first >>= next) (faults ++ others) := by
  cases first with
  | ok value =>
      cases (here : faults = [])
      exact later value rfl
  | error fault =>
      have found : faults.head? = some fault := here
      change (faults ++ others).head? = some fault
      rw [List.head?_append, found, Option.some_or]

/-- Making something of the value is no fault. -/
theorem finish (here : Reports first faults) (make : ρ → τ) :
    Reports (first >>= fun value => .ok (make value)) faults := by
  rw [← List.append_nil faults]
  exact here.bind fun _ _ => .ok _

theorem guard {wrong holds : Prop} [Decidable wrong] [Decidable holds] {fault : ε}
    {rest : Except ε τ} (opposite : wrong ↔ ¬holds) (later : holds → Reports rest others) :
    Reports (if wrong then .error fault else rest) (faultUnless holds fault ++ others) := by
  unfold faultUnless
  split_ifs with failed passed passed
  · exact absurd passed (opposite.mp failed)
  · rfl
  · exact later passed
  · exact absurd (opposite.mpr passed) failed

theorem check {wrong holds : Prop} [Decidable wrong] [Decidable holds] {fault : ε} {value : τ}
    (opposite : wrong ↔ ¬holds) :
    Reports (if wrong then .error fault else .ok value) (faultUnless holds fault) := by
  rw [← List.append_nil (faultUnless holds fault)]
  exact guard opposite fun _ => .ok value

/-- A search for a fault reports the first one it comes to. -/
theorem search {search : Option ρ} {items : List ρ} {fault : ρ → ε}
    (first : items.head? = search) (found : ∀ item, search = some item → result = .error (fault item))
    (missed : search = none → ∃ value, result = .ok value) : Reports result (items.map fault) := by
  cases items with
  | nil =>
      obtain ⟨value, rfl⟩ := missed first.symm
      exact .ok value
  | cons item rest =>
      rw [found item first.symm]
      rfl

/-- What is looked up is missing, unless a condition holds. -/
theorem lookup {search : Option ρ} {holds : Prop} [Decidable holds] {fault : ε}
    (present : (∃ item, search = some item) ↔ holds)
    (found : ∀ item, search = some item → ∃ value, result = .ok value)
    (missed : search = none → result = .error fault) :
    Reports result (faultUnless holds fault) := by
  cases searched : search with
  | none =>
      have missing : ¬holds := fun held => by
        obtain ⟨item, known⟩ := present.mpr held
        cases searched.symm.trans known
      rw [missed searched, faultUnless, if_neg missing]
      rfl
  | some item =>
      obtain ⟨value, rfl⟩ := found item searched
      rw [faultUnless, if_pos (present.mp ⟨item, searched⟩)]
      rfl

/-- Faults may be told in other words. -/
theorem relabel {change : ε → ε'} {told : Except ε' τ} (reports : Reports result faults)
    (passes : ∀ value, result = .ok value → ∃ value, told = .ok value)
    (fails : ∀ fault, result = .error fault → told = .error (change fault)) :
    Reports told (faults.map change) := by
  apply search (rfl : faults.head? = faults.head?)
  · intro fault first
    exact fails fault (reports.error_iff.mpr first)
  · intro none
    obtain ⟨value, passed⟩ := reports.exists_ok_iff.mpr (List.head?_eq_none_iff.mp none)
    exact passes value passed

/-- Each item is looked at if nothing was wrong with the ones before. -/
theorem forM {check : ρ → Except ε Unit} {faultsOf : ρ → List ε} {items : List ρ}
    (each : ∀ item ∈ items, Reports (check item) (faultsOf item)) :
    Reports (items.forM check) (items.flatMap faultsOf) := by
  induction items with
  | nil => exact .ok ()
  | cons item rest ih =>
      rw [List.forall_mem_cons] at each
      exact each.1.bind fun _ _ => ih each.2

theorem mapM {change : ρ → Except ε τ} {faultsOf : ρ → List ε} {items : List ρ}
    (each : ∀ item ∈ items, Reports (change item) (faultsOf item)) :
    Reports (items.mapM change) (items.flatMap faultsOf) := by
  induction items with
  | nil => exact .ok []
  | cons item rest ih =>
      rw [List.forall_mem_cons] at each
      rw [List.mapM_cons, List.flatMap_cons]
      apply each.1.bind
      intro value _
      exact (ih each.2).finish _

end Reports

end Handover
