import Mathlib.Data.List.Forall2

/-!
# Outcomes that are values

* `bind_eq_ok_iff`, `map_eq_ok_iff`: a chain of fallible steps yields a value when each step does;
* `mapM_eq_ok_iff`, `exists_of_mapM_eq_ok`: the values of a fallible step taken at each member of a
  list;
* `HasValue`: whether a chain of steps has a value, with one lemma for each way to chain them;
* `Yields`: what holds of the value of a chain of steps, if it has one;
* `FailsWith`: what holds of its error, if it has one;
* `mapM_eq_error_iff`, `bind_eq_error_iff_of_failsWith`: where an error comes from.
-/

namespace SelectQuery

variable {ε α β : Type}

theorem bind_eq_ok_iff {r : Except ε α} {f : α → Except ε β} {b : β} :
    (r >>= f) = .ok b ↔ ∃ a, r = .ok a ∧ f a = .ok b := by
  cases r with
  | error e => simp [bind, Except.bind]
  | ok a => simp [bind, Except.bind]

theorem map_eq_ok_iff {r : Except ε α} {f : α → β} {b : β} :
    r.map f = .ok b ↔ ∃ a, r = .ok a ∧ f a = b := by
  cases r with
  | error e => simp [Except.map]
  | ok a => simp [Except.map]

theorem pure_eq_ok_iff {a b : α} : (pure a : Except ε α) = .ok b ↔ a = b := by
  simp [pure, Except.pure]

theorem mapM_eq_ok_iff {f : α → Except ε β} {as : List α} {bs : List β} :
    as.mapM f = .ok bs ↔ List.Forall₂ (fun a b => f a = .ok b) as bs := by
  induction as generalizing bs with
  | nil => rw [List.mapM_nil, pure_eq_ok_iff, List.forall₂_nil_left_iff, eq_comm]
  | cons a as ih =>
    rw [List.mapM_cons, List.forall₂_cons_left_iff]
    constructor
    · intro h
      obtain ⟨b, hb, h⟩ := bind_eq_ok_iff.mp h
      obtain ⟨rest, hrest, h⟩ := bind_eq_ok_iff.mp h
      exact ⟨b, rest, hb, ih.mp hrest, (pure_eq_ok_iff.mp h).symm⟩
    · rintro ⟨b, rest, hb, hrest, rfl⟩
      exact bind_eq_ok_iff.mpr ⟨b, hb, bind_eq_ok_iff.mpr ⟨rest, ih.mpr hrest, rfl⟩⟩

theorem exists_of_forall₂ {R : α → β → Prop} {as : List α} {bs : List β} (h : List.Forall₂ R as bs)
    {a : α} (hmem : a ∈ as) : ∃ b ∈ bs, R a b := by
  induction h with
  | nil => cases hmem
  | @cons first b rest bs hfirst _ ih =>
    rcases List.mem_cons.mp hmem with rfl | hmem
    · exact ⟨b, List.mem_cons_self, hfirst⟩
    · obtain ⟨b, hb, hab⟩ := ih hmem
      exact ⟨b, List.mem_cons_of_mem _ hb, hab⟩

theorem exists_of_mapM_eq_ok {f : α → Except ε β} {as : List α} {bs : List β}
    (h : as.mapM f = .ok bs) {a : α} (hmem : a ∈ as) : ∃ b ∈ bs, f a = .ok b :=
  exists_of_forall₂ (mapM_eq_ok_iff.mp h) hmem

/-! ## Whether there is a value -/

/-- A computation that has a value. -/
def HasValue (r : Except ε α) : Prop := ∃ a, r = .ok a

@[simp] theorem hasValue_ok (a : α) : HasValue (.ok a : Except ε α) := ⟨a, rfl⟩

@[simp] theorem hasValue_pure (a : α) : HasValue (pure a : Except ε α) := ⟨a, rfl⟩

theorem hasValue_map_iff {r : Except ε α} {f : α → β} : HasValue (r.map f) ↔ HasValue r := by
  cases r with
  | error e => simp [HasValue, Except.map]
  | ok a => simp [HasValue, Except.map]

theorem hasValue_bind_iff {r : Except ε α} {f : α → Except ε β} {P : Prop}
    (hf : ∀ a, HasValue (f a) ↔ P) : HasValue (r >>= f) ↔ HasValue r ∧ P := by
  cases r with
  | error e => simp [HasValue, bind, Except.bind]
  | ok a => simpa [bind, Except.bind] using hf a

theorem hasValue_bind_pure_iff {r : Except ε α} {f : α → β} :
    HasValue (r >>= fun a => pure (f a)) ↔ HasValue r := by
  rw [hasValue_bind_iff fun a => iff_true_intro (hasValue_pure (f a)), and_true]

theorem hasValue_mapM_iff {f : α → Except ε β} {as : List α} :
    HasValue (as.mapM f) ↔ ∀ a ∈ as, HasValue (f a) := by
  induction as with
  | nil => simp
  | cons a as ih =>
    rw [List.mapM_cons, List.forall_mem_cons, ← ih]
    exact hasValue_bind_iff fun _ => hasValue_bind_pure_iff

/-! ## What holds of a value -/

/-- What holds of the value of a computation, if it has one. -/
def Yields (P : α → Prop) (r : Except ε α) : Prop := ∀ a, r = .ok a → P a

variable {P : α → Prop} {Q : β → Prop}

theorem yields_ok {a : α} (h : P a) : Yields P (.ok a : Except ε α) := by
  intro b hb
  cases hb
  exact h

theorem Yields.bind {r : Except ε α} {f : α → Except ε β} (h : Yields P r)
    (hf : ∀ a, P a → Yields Q (f a)) : Yields Q (r >>= f) := by
  intro b hb
  obtain ⟨a, ha, hb⟩ := bind_eq_ok_iff.mp hb
  exact hf a (h a ha) b hb

theorem yields_mapM {f : α → Except ε β} {as : List α} (h : ∀ a ∈ as, Yields Q (f a)) :
    Yields (fun bs => ∀ b ∈ bs, Q b) (as.mapM f) := by
  intro bs hbs
  have hall := mapM_eq_ok_iff.mp hbs
  clear hbs
  induction hall with
  | nil => exact fun _ hb => nomatch hb
  | @cons a b as bs hab _ ih =>
    obtain ⟨ha, has⟩ := List.forall_mem_cons.mp h
    exact List.forall_mem_cons.mpr ⟨ha b hab, ih has⟩

/-! ## What holds of an error -/

theorem bind_eq_error_iff {r : Except ε α} {f : α → Except ε β} {e : ε} :
    (r >>= f) = .error e ↔ r = .error e ∨ ∃ a, r = .ok a ∧ f a = .error e := by
  cases r with
  | error e' => simp [bind, Except.bind]
  | ok a => simp [bind, Except.bind]

theorem map_eq_error_iff {r : Except ε α} {f : α → β} {e : ε} :
    r.map f = .error e ↔ r = .error e := by
  cases r with
  | error e' => simp [Except.map]
  | ok a => simp [Except.map]

theorem mapM_eq_error_iff {f : α → Except ε β} {as : List α} {e : ε} :
    as.mapM f = .error e ↔ ∃ front a back, as = front ++ a :: back ∧
      (∀ b ∈ front, ∃ value, f b = .ok value) ∧ f a = .error e := by
  induction as with
  | nil => simp [pure, Except.pure]
  | cons a as ih =>
    rw [List.mapM_cons, bind_eq_error_iff]
    constructor
    · rintro (ha | ⟨value, ha, h⟩)
      · exact ⟨[], a, as, rfl, List.forall_mem_nil _, ha⟩
      · rcases bind_eq_error_iff.mp h with h | ⟨rest, -, h⟩
        · obtain ⟨front, b, back, rfl, hfront, hb⟩ := ih.mp h
          exact ⟨a :: front, b, back, rfl, List.forall_mem_cons.mpr ⟨⟨value, ha⟩, hfront⟩, hb⟩
        · cases h
    · rintro ⟨front, b, back, hsplit, hfront, hb⟩
      cases front with
      | nil =>
        obtain ⟨rfl, rfl⟩ := List.cons.inj hsplit
        exact .inl hb
      | cons c front =>
        obtain ⟨rfl, rfl⟩ := List.cons.inj hsplit
        obtain ⟨⟨value, ha⟩, hfront⟩ := List.forall_mem_cons.mp hfront
        have hrest := ih.mpr ⟨front, b, back, rfl, hfront, hb⟩
        exact .inr ⟨value, ha, bind_eq_error_iff.mpr (.inl hrest)⟩

/-- What holds of the error of a computation, if it has one. -/
def FailsWith (E : ε → Prop) (r : Except ε α) : Prop := ∀ e, r = .error e → E e

variable {E : ε → Prop}

theorem failsWith_ok (a : α) : FailsWith E (.ok a : Except ε α) := fun _ h => nomatch h

theorem failsWith_error {e : ε} (h : E e) : FailsWith E (.error e : Except ε α) := by
  intro e' he'
  cases he'
  exact h

theorem FailsWith.mono {E' : ε → Prop} {r : Except ε α} (h : FailsWith E r)
    (himp : ∀ e, E e → E' e) : FailsWith E' r := fun e he => himp e (h e he)

theorem FailsWith.map {r : Except ε α} (h : FailsWith E r) (f : α → β) :
    FailsWith E (r.map f) := fun e he => h e (map_eq_error_iff.mp he)

theorem FailsWith.bind {r : Except ε α} {f : α → Except ε β} (h : FailsWith E r)
    (hf : ∀ a, FailsWith E (f a)) : FailsWith E (r >>= f) := by
  intro e he
  rcases bind_eq_error_iff.mp he with hr | ⟨a, -, ha⟩
  · exact h e hr
  · exact hf a e ha

theorem failsWith_mapM {f : α → Except ε β} {as : List α} (h : ∀ a ∈ as, FailsWith E (f a)) :
    FailsWith E (as.mapM f) := by
  intro e he
  obtain ⟨front, a, back, rfl, -, ha⟩ := mapM_eq_error_iff.mp he
  exact h a (List.mem_append_right _ List.mem_cons_self) e ha

/-- An error that none of the later steps has is one of the first. -/
theorem bind_eq_error_iff_of_failsWith {r : Except ε α} {f : α → Except ε β} {e : ε}
    (hf : ∀ a, FailsWith E (f a)) (he : ¬E e) : (r >>= f) = .error e ↔ r = .error e := by
  rw [bind_eq_error_iff]
  refine ⟨fun h => h.resolve_right ?_, .inl⟩
  rintro ⟨a, -, ha⟩
  exact he (hf a e ha)

end SelectQuery
