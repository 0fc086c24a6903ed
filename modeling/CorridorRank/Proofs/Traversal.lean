import Mathlib.Data.List.Forall2

/-!
# Traversals that can fail

A traversal in `Except` runs a task on each item in order and stops at the first failure.
The facts here say exactly what it returns: it succeeds when every item succeeds, with the
results related item by item to the inputs (`mapM_eq_ok_iff`), and it fails with the fault
of the first item that fails, every item before that one having succeeded
(`mapM_eq_error_iff`). Sequencing two computations is peeled apart by `bind_eq_ok` and
`bind_eq_error`, so that no later proof unfolds `Except.bind`.
-/

namespace CorridorRank.Traversal

variable {α β ε : Type}

theorem bind_eq_ok
    {first : Except ε α}
    {next : α → Except ε β}
    {result : β} :
    first >>= next = .ok result ↔ ∃ value, first = .ok value ∧ next value = .ok result := by
  cases first <;> simp [bind, Except.bind]

theorem bind_eq_error
    {first : Except ε α}
    {next : α → Except ε β}
    {fault : ε} :
    first >>= next = .error fault ↔
      first = .error fault ∨ ∃ value, first = .ok value ∧ next value = .error fault := by
  cases first <;> simp [bind, Except.bind]

@[simp]
theorem pure_eq_ok
    {value result : α} :
    (pure value : Except ε α) = .ok result ↔ value = result := by
  simp [pure, Except.pure]

@[simp]
theorem pure_ne_error
    {value : α}
    {fault : ε} :
    (pure value : Except ε α) ≠ .error fault := by
  simp [pure, Except.pure]

/-- A result that evaluates as returning returns a value. -/
theorem exists_ok_of_isOk
    {result : Except ε α}
    (returns : result.isOk = true) :
    ∃ value, result = .ok value := by
  cases result with
  | error fault => cases returns
  | ok value => exact ⟨value, rfl⟩

/-- A result that evaluates to a value with a decidable property returns such a value. -/
theorem exists_ok_of_any
    {result : Except ε α}
    {holds : α → Prop}
    [DecidablePred holds]
    (evaluated : result.toOption.any (fun value => decide (holds value)) = true) :
    ∃ value, result = .ok value ∧ holds value := by
  cases result with
  | error fault => cases evaluated
  | ok value => exact ⟨value, rfl, of_decide_eq_true evaluated⟩

theorem ok_bind
    {value : α}
    {next : α → Except ε β} :
    (Except.ok value >>= next) = next value :=
  rfl

/-- A computation followed by a step returns when the computation does, and the step does
on what it returned. -/
theorem returns_bind
    {γ : Type}
    {first : Except ε β}
    {next : β → Except ε γ}
    {value : β}
    (firstOk : first = .ok value)
    (rest : ∃ result, next value = .ok result) :
    ∃ result, first >>= next = .ok result := by
  obtain ⟨result, restOk⟩ := rest
  exact ⟨result, bind_eq_ok.mpr ⟨value, firstOk, restOk⟩⟩

/-- As `returns_bind`, for a result that the step also says something of. -/
theorem returns_bind_and
    {γ : Type}
    {first : Except ε β}
    {next : β → Except ε γ}
    {value : β}
    {holds : γ → Prop}
    (firstOk : first = .ok value)
    (rest : ∃ result, next value = .ok result ∧ holds result) :
    ∃ result, first >>= next = .ok result ∧ holds result := by
  obtain ⟨result, restOk, resultHolds⟩ := rest
  exact ⟨result, bind_eq_ok.mpr ⟨value, firstOk, restOk⟩, resultHolds⟩

/-- A computation that returns, followed by a step that returns on anything, returns. -/
theorem bind_returns
    {γ : Type}
    {first : Except ε β}
    {next : β → Except ε γ}
    (firstReturns : ∃ value, first = .ok value)
    (rest : ∀ value, ∃ result, next value = .ok result) :
    ∃ result, first >>= next = .ok result := by
  obtain ⟨value, firstOk⟩ := firstReturns
  exact returns_bind firstOk (rest value)

/-- A traversal succeeds exactly when each item's task succeeds, the results in order. -/
theorem mapM_eq_ok_iff
    (task : α → Except ε β)
    (items : List α)
    (results : List β) :
    items.mapM task = .ok results ↔
      List.Forall₂ (fun item result => task item = .ok result) items results := by
  induction items generalizing results with
  | nil =>
      cases results <;> simp
  | cons item rest ih =>
      rw [List.mapM_cons, bind_eq_ok]
      constructor
      · rintro ⟨head, headOk, restOk⟩
        obtain ⟨tail, tailOk, consed⟩ := bind_eq_ok.mp restOk
        rw [pure_eq_ok] at consed
        subst consed
        exact List.Forall₂.cons headOk ((ih tail).mp tailOk)
      · intro related
        cases related with
        | cons headOk restRelated =>
            exact ⟨_, headOk, bind_eq_ok.mpr ⟨_, (ih _).mpr restRelated, rfl⟩⟩

/-- A traversal fails with the fault of its first failing item; every item before it
succeeded. -/
theorem mapM_eq_error_iff
    (task : α → Except ε β)
    (items : List α)
    (fault : ε) :
    items.mapM task = .error fault ↔
      ∃ before item after, items = before ++ item :: after ∧
        (∀ earlier ∈ before, ∃ result, task earlier = .ok result) ∧
        task item = .error fault := by
  induction items with
  | nil =>
      simp
  | cons head rest ih =>
      rw [List.mapM_cons, bind_eq_error]
      constructor
      · rintro (headFails | ⟨value, headOk, restFails⟩)
        · exact ⟨[], head, rest, rfl, by simp, headFails⟩
        · have tailFails : rest.mapM task = .error fault := by
            rcases bind_eq_error.mp restFails with failed | ⟨_, _, impossible⟩
            · exact failed
            · exact absurd impossible pure_ne_error
          obtain ⟨before, item, after, split, earlierOk, itemFails⟩ := ih.mp tailFails
          refine ⟨head :: before, item, after, by simp [split], ?_, itemFails⟩
          intro earlier member
          rcases List.mem_cons.mp member with rfl | member
          · exact ⟨value, headOk⟩
          · exact earlierOk earlier member
      · rintro ⟨before, item, after, split, earlierOk, itemFails⟩
        cases before with
        | nil =>
            simp only [List.nil_append, List.cons.injEq] at split
            obtain ⟨rfl, rfl⟩ := split
            exact Or.inl itemFails
        | cons first before =>
            simp only [List.cons_append, List.cons.injEq] at split
            obtain ⟨rfl, rfl⟩ := split
            obtain ⟨value, headOk⟩ := earlierOk head (by simp)
            have tailFails : (before ++ item :: after).mapM task = .error fault :=
              ih.mpr ⟨before, item, after, rfl,
                fun earlier member => earlierOk earlier (by simp [member]), itemFails⟩
            exact Or.inr ⟨value, headOk, bind_eq_error.mpr (Or.inl tailFails)⟩

/-- A traversal over items paired with their positions, whose task fails independently of
the position, fails with the fault of its first failing item; no item before it fails. -/
theorem mapM_zipIdx_eq_error_iff
    (task : Nat → α → Except ε β)
    (Fails : α → ε → Prop)
    (fails_iff : ∀ position item fault, task position item = .error fault ↔ Fails item fault)
    (items : List α)
    (start : Nat)
    (fault : ε) :
    (items.zipIdx start).mapM (fun (item, position) => task position item) = .error fault ↔
      ∃ before item after, items = before ++ item :: after ∧
        (∀ earlier ∈ before, ∀ other, ¬ Fails earlier other) ∧ Fails item fault := by
  induction items generalizing start with
  | nil =>
      simp
  | cons head rest ih =>
      rw [List.zipIdx_cons, List.mapM_cons, bind_eq_error]
      constructor
      · rintro (headFails | ⟨value, headOk, restFails⟩)
        · exact ⟨[], head, rest, rfl, by simp, (fails_iff start head fault).mp headFails⟩
        · have tailFails :
              (rest.zipIdx (start + 1)).mapM (fun (item, position) => task position item) =
                .error fault := by
            rcases bind_eq_error.mp restFails with failed | ⟨_, _, impossible⟩
            · exact failed
            · exact absurd impossible pure_ne_error
          obtain ⟨before, item, after, split, earlierPass, itemFails⟩ :=
            (ih (start + 1)).mp tailFails
          refine ⟨head :: before, item, after, by simp [split], ?_, itemFails⟩
          intro earlier member other
          rcases List.mem_cons.mp member with rfl | member
          · intro headFails
            have failed := (fails_iff start earlier other).mpr headFails
            simp only at headOk
            rw [headOk] at failed
            cases failed
          · exact earlierPass earlier member other
      · rintro ⟨before, item, after, split, earlierPass, itemFails⟩
        cases before with
        | nil =>
            simp only [List.nil_append, List.cons.injEq] at split
            obtain ⟨rfl, rfl⟩ := split
            exact Or.inl ((fails_iff start head fault).mpr itemFails)
        | cons first before =>
            simp only [List.cons_append, List.cons.injEq] at split
            obtain ⟨rfl, rfl⟩ := split
            have headOk : ∃ value, task start head = .ok value := by
              cases passed : task start head with
              | ok value => exact ⟨value, rfl⟩
              | error other =>
                  exact absurd ((fails_iff start head other).mp passed)
                    (earlierPass head (by simp) other)
            obtain ⟨value, headOk⟩ := headOk
            have tailFails :=
              (ih (start + 1)).mpr ⟨before, item, after, rfl,
                fun earlier member => earlierPass earlier (by simp [member]), itemFails⟩
            exact Or.inr ⟨value, headOk, bind_eq_error.mpr (Or.inl tailFails)⟩

/-- A traversal whose every task succeeds succeeds. -/
theorem mapM_returns
    {task : α → Except ε β}
    {items : List α}
    (each : ∀ item ∈ items, ∃ result, task item = .ok result) :
    ∃ results, items.mapM task = .ok results := by
  induction items with
  | nil => exact ⟨[], rfl⟩
  | cons item rest ih =>
      obtain ⟨head, headOk⟩ := each item (by simp)
      obtain ⟨tail, tailOk⟩ := ih fun other member => each other (by simp [member])
      exact ⟨head :: tail, by rw [List.mapM_cons, headOk, tailOk]; rfl⟩

/-! ## Runs of checks and folds -/

/-- A run of checks passes when every check passes. -/
theorem forM_eq_ok
    {check : α → Except ε Unit}
    {items : List α}
    (pass : ∀ item ∈ items, check item = .ok ()) :
    items.forM check = .ok () := by
  induction items with
  | nil => rfl
  | cons item rest ih =>
      rw [List.forM_eq_forM, List.forM_cons, pass item (by simp)]
      exact ih fun other member => pass other (by simp [member])

/-- A run of checks fails with the fault of its first failing check. -/
theorem forM_eq_error
    {check : α → Except ε Unit}
    {before after : List α}
    {item : α}
    {fault : ε}
    (pass : ∀ earlier ∈ before, check earlier = .ok ())
    (fails : check item = .error fault) :
    (before ++ item :: after).forM check = .error fault := by
  induction before with
  | nil =>
      rw [List.nil_append, List.forM_eq_forM, List.forM_cons, fails]
      rfl
  | cons earlier rest ih =>
      rw [List.cons_append, List.forM_eq_forM, List.forM_cons, pass earlier (by simp)]
      exact ih fun other member => pass other (by simp [member])

/-- A fold whose every step succeeds, whatever it has gathered, succeeds. -/
theorem foldlM_returns
    {step : β → α → Except ε β}
    {items : List α}
    (steps : ∀ item ∈ items, ∀ gathered, ∃ next, step gathered item = .ok next)
    (init : β) :
    ∃ result, items.foldlM step init = .ok result := by
  induction items generalizing init with
  | nil => exact ⟨init, rfl⟩
  | cons item rest ih =>
      obtain ⟨next, stepped⟩ := steps item (by simp) init
      rw [List.foldlM_cons, stepped]
      exact ih (fun other member => steps other (by simp [member])) next

/-- A fold fails with the fault of its first step that fails, whatever it has gathered,
after steps that succeed. -/
theorem foldlM_eq_error
    {step : β → α → Except ε β}
    {before after : List α}
    {item : α}
    {fault : ε}
    (steps : ∀ earlier ∈ before, ∀ gathered, ∃ next, step gathered earlier = .ok next)
    (fails : ∀ gathered, step gathered item = .error fault)
    (init : β) :
    (before ++ item :: after).foldlM step init = .error fault := by
  induction before generalizing init with
  | nil =>
      rw [List.nil_append, List.foldlM_cons, fails]
      rfl
  | cons earlier rest ih =>
      obtain ⟨next, stepped⟩ := steps earlier (by simp) init
      rw [List.cons_append, List.foldlM_cons, stepped]
      exact ih (fun other member => steps other (by simp [member])) next

end CorridorRank.Traversal
