import Mathlib.Data.List.Forall2

namespace StyleOrder
namespace Reading

/-!
# Readings that may fail

Patterns, settings and the fields of values are read one after the other, and the first
failure ends the reading.  So a reading succeeds exactly if each of its parts does, and what
it returns is made of what they return.
-/

variable {ε α β : Type}

theorem bind_eq_ok_iff {first : Except ε α} {next : α → Except ε β} {result : β} :
    (first >>= next) = .ok result ↔ ∃ value, first = .ok value ∧ next value = .ok result := by
  cases first with
  | error error => simp [bind, Except.bind]
  | ok value => simp [bind, Except.bind]

theorem eq_ok_of_toOption {first : Except ε α} {value : α} (found : first.toOption = some value) :
    first = .ok value := by
  cases first with
  | error error => cases found
  | ok other => exact congrArg Except.ok (Option.some.inj found)

theorem exists_of_isOk {first : Except ε α} (succeeds : first.isOk) :
    ∃ value, first = .ok value := by
  cases first with
  | error error => cases succeeds
  | ok value => exact ⟨value, rfl⟩

theorem map_eq_ok_iff {first : Except ε α} {f : α → β} {result : β} :
    f <$> first = .ok result ↔ ∃ value, first = .ok value ∧ f value = result := by
  cases first <;> simp [Functor.map, Except.map]

/-- A check that fails ends the reading. -/
theorem check_eq_ok_iff {fails : Prop} [Decidable fails] {error : ε} {rest : Except ε β}
    {result : β} :
    (if fails then throw error else rest) = .ok result ↔ ¬fails ∧ rest = .ok result := by
  by_cases failed : fails
  · simp [failed, throw, throwThe, MonadExceptOf.throw]
  · simp [failed]

@[simp] theorem throw_bind (error : ε) (next : α → Except ε β) :
    (throw error >>= next : Except ε β) = throw error :=
  rfl

theorem mapM_eq_ok_iff {read : α → Except ε β} {values : List α} {results : List β} :
    values.mapM read = .ok results ↔
      List.Forall₂ (fun value result => read value = .ok result) values results := by
  induction values generalizing results with
  | nil => simp [pure, Except.pure, eq_comm]
  | cons value rest ih =>
      rw [List.mapM_cons, List.forall₂_cons_left_iff]
      simp only [bind_eq_ok_iff, ih, pure, Except.pure, Except.ok.injEq]
      constructor
      · rintro ⟨first, read, others, each, rfl⟩
        exact ⟨first, others, read, each, rfl⟩
      · rintro ⟨first, others, read, each, rfl⟩
        exact ⟨first, read, others, each, rfl⟩

theorem forM_eq_ok_iff {check : α → Except ε Unit} {values : List α} :
    values.forM check = .ok () ↔ ∀ value ∈ values, check value = .ok () := by
  induction values with
  | nil => simp [pure, Except.pure]
  | cons value rest ih =>
      change (check value >>= fun _ => rest.forM check) = .ok () ↔ _
      rw [bind_eq_ok_iff, List.forall_mem_cons]
      exact ⟨fun ⟨_, first, others⟩ => ⟨first, ih.mp others⟩,
        fun ⟨first, others⟩ => ⟨(), first, ih.mpr others⟩⟩

theorem bind_eq_error_iff {first : Except ε α} {next : α → Except ε β} {error : ε} :
    (first >>= next) = .error error ↔
      first = .error error ∨ ∃ value, first = .ok value ∧ next value = .error error := by
  cases first with
  | error other => simp [bind, Except.bind]
  | ok value => simp [bind, Except.bind]

/-- Where a reading of many values fails, one of them does. -/
theorem exists_error_of_mapM {read : α → Except ε β} {values : List α} {error : ε}
    (failed : values.mapM read = .error error) : ∃ value ∈ values, read value = .error error := by
  induction values with
  | nil => cases failed
  | cons value rest ih =>
      rw [List.mapM_cons, bind_eq_error_iff] at failed
      rcases failed with first | ⟨result, -, others⟩
      · exact ⟨value, List.mem_cons_self, first⟩
      · rcases bind_eq_error_iff.mp others with later | ⟨_, -, never⟩
        · rcases ih later with ⟨other, member, fails⟩
          exact ⟨other, List.mem_cons_of_mem _ member, fails⟩
        · cases never

section Forall₂

variable {relation : α → β → Prop} {values : List α} {results : List β}

theorem exists_result_of_mem (each : List.Forall₂ relation values results) {value : α}
    (member : value ∈ values) : ∃ result ∈ results, relation value result := by
  induction each with
  | nil => cases member
  | @cons first result _ _ related _ ih =>
      rcases List.mem_cons.mp member with rfl | member
      · exact ⟨result, List.mem_cons_self, related⟩
      · rcases ih member with ⟨other, known, related⟩
        exact ⟨other, List.mem_cons_of_mem _ known, related⟩

theorem exists_value_of_mem (each : List.Forall₂ relation values results) {result : β}
    (member : result ∈ results) : ∃ value ∈ values, relation value result :=
  exists_result_of_mem each.flip member

/-- Values that can each be read can be read together. -/
theorem exists_results (each : ∀ value ∈ values, ∃ result, relation value result) :
    ∃ results, List.Forall₂ relation values results := by
  induction values with
  | nil => exact ⟨[], .nil⟩
  | cons value rest ih =>
      rcases List.forall_mem_cons.mp each with ⟨⟨result, related⟩, others⟩
      rcases ih others with ⟨results, related'⟩
      exact ⟨result :: results, .cons related related'⟩

end Forall₂

end Reading
end StyleOrder
