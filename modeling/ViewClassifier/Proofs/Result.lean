import ViewClassifier.Error

/-!
# Results of steps

What an `ok` result says about the steps that led to it. A step that is taken for every member of a
list has a result exactly when it has one for each member.
-/

set_option autoImplicit false

namespace ViewClassifier

namespace Result

theorem bind_eq_ok_iff {α β : Type} {step : Result α} {next : α → Result β} {result : β} :
    (step >>= next) = .ok result ↔ ∃ value, step = .ok value ∧ next value = .ok result := by
  cases step with
  | error error => simp [bind, Except.bind]
  | ok value => simp [bind, Except.bind]

theorem bind_pure_eq_ok_iff {α β : Type} {step : Result α} {value : α → β} {result : β} :
    (step >>= fun item => pure (value item)) = .ok result ↔
      ∃ item, step = .ok item ∧ result = value item := by
  rw [bind_eq_ok_iff]
  constructor
  · intro passed
    obtain ⟨item, accepted, shape⟩ := passed
    exact ⟨item, accepted, (Except.ok.inj shape).symm⟩
  · intro given
    obtain ⟨item, accepted, shape⟩ := given
    exact ⟨item, accepted, shape ▸ rfl⟩

@[simp] theorem throw_eq {α : Type} (error : Error) : (throw error : Result α) = .error error := rfl

@[simp] theorem pure_eq {α : Type} (value : α) : (pure value : Result α) = .ok value := rfl

@[simp] theorem ok_bind {α β : Type} (value : α) (next : α → Result β) :
    ((.ok value : Result α) >>= next) = next value := rfl

@[simp] theorem error_bind {α β : Type} (error : Error) (next : α → Result β) :
    ((.error error : Result α) >>= next) = .error error := rfl

@[simp] theorem then_error_eq_ok_iff {α : Type} {refused : Prop} [Decidable refused] {error : Error}
    {next : Result α} {result : α} :
    (if refused then .error error else next) = .ok result ↔ ¬ refused ∧ next = .ok result := by
  by_cases decided : refused <;> simp [decided]

@[simp] theorem else_error_eq_ok_iff {α : Type} {accepted : Prop} [Decidable accepted]
    {error : Error} {next : Result α} {result : α} :
    (if accepted then next else .error error) = .ok result ↔ accepted ∧ next = .ok result := by
  by_cases decided : accepted <;> simp [decided]

/-- When a step accepts exactly the valid items and gives each of them a fixed value, a run over a
list accepts exactly the lists of valid items and gives their values in order. -/
theorem mapM_eq_ok_iff {α β : Type} {step : α → Result β} {valid : α → Prop} {value : α → β}
    (spec : ∀ item result, step item = .ok result ↔ valid item ∧ result = value item)
    {items : List α} {results : List β} :
    items.mapM step = .ok results ↔
      (∀ item ∈ items, valid item) ∧ results = items.map value := by
  induction items generalizing results with
  | nil => simp [eq_comm]
  | cons head tail ih =>
      rw [List.mapM_cons, bind_eq_ok_iff]
      constructor
      · intro passed
        obtain ⟨first, accepted, continuation⟩ := passed
        obtain ⟨rest, remaining, shape⟩ := bind_pure_eq_ok_iff.mp continuation
        obtain ⟨headValid, rfl⟩ := (spec head first).mp accepted
        obtain ⟨tailValid, rfl⟩ := ih.mp remaining
        refine ⟨?_, shape⟩
        intro item member
        rcases List.mem_cons.mp member with rfl | member
        · exact headValid
        · exact tailValid item member
      · intro given
        obtain ⟨valid, shape⟩ := given
        refine ⟨value head, (spec head _).mpr ⟨valid head (.head _), rfl⟩, ?_⟩
        have remaining := ih.mpr ⟨fun item member => valid item (.tail _ member), rfl⟩
        exact bind_pure_eq_ok_iff.mpr ⟨_, remaining, shape⟩

/-- When every step of a run checks its item apart from the state that it carries on, the run is a run of
all checks and then a fold without refusals. -/
theorem foldlM_of_checked {α σ : Type} {step : σ → α → Result σ} {check : α → Result Unit}
    {next : σ → α → σ} {items : List α}
    (spec : ∀ item ∈ items, ∀ state,
      step state item = check item >>= fun _ => pure (next state item)) (state : σ) :
    items.foldlM step state = items.mapM check >>= fun _ => pure (items.foldl next state) := by
  induction items generalizing state with
  | nil => rfl
  | cons head tail ih =>
      have later := ih fun item member => spec item (.tail _ member)
      rw [List.foldlM_cons, List.mapM_cons, spec head (.head _), List.foldl_cons]
      cases check head with
      | error error => rfl
      | ok checked =>
          rw [ok_bind, ok_bind, pure_eq, ok_bind, later]
          cases tail.mapM check with
          | error error => rfl
          | ok rest => rfl

theorem bind_eq_error_iff {α β : Type} {step : Result α} {next : α → Result β} {error : Error} :
    (step >>= next) = .error error ↔
      step = .error error ∨ ∃ value, step = .ok value ∧ next value = .error error := by
  cases step with
  | error first => simp [bind, Except.bind]
  | ok value => simp [bind, Except.bind]

theorem bind_pure_eq_error_iff {α β : Type} {step : Result α} {value : α → β} {error : Error} :
    (step >>= fun item => pure (value item)) = .error error ↔ step = .error error := by
  cases step with
  | error first => simp [bind, Except.bind]
  | ok item => simp [bind, Except.bind]

theorem exists_ok_iff {α : Type} {step : Result α} :
    (∃ value, step = .ok value) ↔ ∀ error, step ≠ .error error := by
  cases step with
  | error error => simp
  | ok value => simp

/-- The error that a step has for the first item that it refuses. -/
inductive FirstError {α β : Type} (step : α → Result β) : List α → Error → Prop where
  | here {item : α} {rest : List α} {error : Error} (refused : step item = .error error) :
      FirstError step (item :: rest) error
  | later {item : α} {rest : List α} {result : β} {error : Error}
      (accepted : step item = .ok result) (further : FirstError step rest error) :
      FirstError step (item :: rest) error

theorem mapM_eq_error_iff {α β : Type} {step : α → Result β} {items : List α} {error : Error} :
    items.mapM step = .error error ↔ FirstError step items error := by
  induction items with
  | nil =>
      constructor
      · intro refused
        cases refused
      · intro first
        cases first
  | cons head tail ih =>
      rw [List.mapM_cons, bind_eq_error_iff]
      constructor
      · intro refused
        rcases refused with refused | ⟨result, accepted, continuation⟩
        · exact .here refused
        · rcases bind_eq_error_iff.mp continuation with further | ⟨_, _, impossible⟩
          · exact .later accepted (ih.mp further)
          · cases impossible
      · intro first
        cases first with
        | here refused => exact .inl refused
        | later accepted further =>
            exact .inr ⟨_, accepted, bind_eq_error_iff.mpr (.inl (ih.mpr further))⟩

namespace FirstError

variable {α β γ δ : Type} {step : α → Result β} {items : List α} {error : Error}

theorem cons_iff {item : α} {rest : List α} :
    FirstError step (item :: rest) error ↔
      step item = .error error ∨
        (∃ result, step item = .ok result) ∧ FirstError step rest error := by
  constructor
  · intro first
    cases first with
    | here refused => exact .inl refused
    | later accepted further => exact .inr ⟨⟨_, accepted⟩, further⟩
  · intro given
    rcases given with refused | ⟨⟨result, accepted⟩, further⟩
    · exact .here refused
    · exact .later accepted further

theorem append_iff {front rest : List α} :
    FirstError step (front ++ rest) error ↔
      FirstError step front error ∨
        (∀ item ∈ front, ∃ result, step item = .ok result) ∧ FirstError step rest error := by
  induction front with
  | nil =>
      constructor
      · intro first
        exact .inr ⟨fun _ member => absurd member List.not_mem_nil, first⟩
      · intro given
        rcases given with impossible | ⟨_, further⟩
        · cases impossible
        · exact further
  | cons head tail ih =>
      rw [List.cons_append, cons_iff, cons_iff, ih, List.forall_mem_cons, and_or_left, or_assoc,
        and_assoc]

theorem exists_mem (first : FirstError step items error) :
    ∃ item ∈ items, step item = .error error := by
  induction first with
  | here refused => exact ⟨_, .head _, refused⟩
  | later _ _ ih =>
      obtain ⟨item, member, refused⟩ := ih
      exact ⟨item, .tail _ member, refused⟩

/-- The items before the refused one have results. -/
theorem iff_split :
    FirstError step items error ↔
      ∃ front item rest, items = front ++ item :: rest ∧
        (∀ earlier ∈ front, ∃ result, step earlier = .ok result) ∧ step item = .error error := by
  constructor
  · intro first
    induction first with
    | @here item rest _ refused =>
        exact ⟨[], item, rest, rfl, fun _ member => absurd member List.not_mem_nil, refused⟩
    | @later item _ result _ accepted _ ih =>
        obtain ⟨front, refusedItem, rest, rfl, before, refused⟩ := ih
        refine ⟨item :: front, refusedItem, rest, rfl, ?_, refused⟩
        exact List.forall_mem_cons.mpr ⟨⟨result, accepted⟩, before⟩
  · intro given
    obtain ⟨front, item, rest, rfl, before, refused⟩ := given
    exact append_iff.mpr (.inr ⟨before, .here refused⟩)

theorem uniform_iff (refusal : Error → Prop) (nonempty : items ≠ [])
    (same : ∀ item ∈ items, ∀ error, step item = .error error ↔ refusal error) :
    FirstError step items error ↔ refusal error := by
  constructor
  · intro first
    obtain ⟨item, member, refused⟩ := first.exists_mem
    exact (same item member error).mp refused
  · intro refused
    cases items with
    | nil => exact absurd rfl nonempty
    | cons head tail => exact .here ((same head (.head _) error).mpr refused)

/-- When each item stands for a group that is refused as the item is, nothing changes. -/
theorem flatMap_iff {group : α → List δ} {inner : δ → Result γ}
    (nonempty : ∀ item ∈ items, group item ≠ [])
    (same : ∀ item ∈ items, ∀ member ∈ group item, ∀ error,
      inner member = .error error ↔ step item = .error error) :
    FirstError inner (items.flatMap group) error ↔ FirstError step items error := by
  induction items with
  | nil =>
      constructor
      · intro first
        cases first
      · intro first
        cases first
  | cons head tail ih =>
      have first : FirstError inner (group head) error ↔ step head = .error error :=
        uniform_iff (step head = .error ·) (nonempty head (.head _)) (same head (.head _))
      have rest := ih (fun item member => nonempty item (.tail _ member))
        (fun item member => same item (.tail _ member))
      have accepted : (∀ member ∈ group head, ∃ result, inner member = .ok result) ↔
          ∃ result, step head = .ok result := by
        simp only [exists_ok_iff]
        constructor
        · intro accepted error refused
          obtain ⟨member, inside⟩ := List.exists_mem_of_ne_nil _ (nonempty head (.head _))
          exact accepted member inside error ((same head (.head _) member inside error).mpr refused)
        · intro accepted member inside error refused
          exact accepted error ((same head (.head _) member inside error).mp refused)
      rw [List.flatMap_cons, append_iff, cons_iff, first, rest, accepted]

end FirstError

end Result

end ViewClassifier
