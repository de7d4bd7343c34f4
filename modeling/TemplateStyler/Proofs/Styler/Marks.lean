import Mathlib.Data.List.Basic
import TemplateStyler.Styler.Marks

/-!
# Marks through their view

Each operation on marks has its equation with `Marks.get?`.

* `nearest?_get?`: the nearest mark is one of the marks, and not behind the position. No mark lies
  between the two (`exists_nearest?`).
* `get?_insertAll`: many states that agree with one function are marked at once.
* `get?_shift`: marks move with the text, and those of the replaced part are gone. A shift fails on
  no marks within a text (`shift_of_within`).
-/

namespace TemplateStyler.Marks

/-! ### The nearest mark -/

theorem foldl_nearest (entries : List (Nat × State)) (best : Option (Nat × State)) {p : Nat}
    {s : State}
    (h : entries.foldl (fun best entry => match best with
      | some b => if b.1 < entry.1 then some entry else some b
      | none => some entry) best = some (p, s)) :
    best = some (p, s) ∨ (entries.lookup p = some s ∧ ∀ b, best = some b → b.1 < p) := by
  induction entries generalizing best with
  | nil => exact Or.inl h
  | cons e entries ih =>
    rw [List.foldl_cons] at h
    obtain ⟨k, v⟩ := e
    cases best with
    | none =>
      rcases ih _ h with heq | ⟨hlookup, hlt⟩
      · simp only [Option.some.injEq, Prod.mk.injEq] at heq
        obtain ⟨rfl, rfl⟩ := heq
        exact Or.inr ⟨by simp, by simp⟩
      · have hne : (p == k) = false := by simpa using Nat.ne_of_gt (hlt _ rfl)
        exact Or.inr ⟨by simp [List.lookup_cons, hne, hlookup], by simp⟩
    | some b =>
      by_cases hb : b.1 < k
      · simp only [hb, if_true] at h
        rcases ih _ h with heq | ⟨hlookup, hlt⟩
        · simp only [Option.some.injEq, Prod.mk.injEq] at heq
          obtain ⟨rfl, rfl⟩ := heq
          exact Or.inr ⟨by simp, by simpa using hb⟩
        · have hk : k < p := hlt _ rfl
          have hne : (p == k) = false := by simpa using Nat.ne_of_gt hk
          refine Or.inr ⟨by simp [List.lookup_cons, hne, hlookup], fun b' hb' => ?_⟩
          cases hb'
          omega
      · simp only [hb, if_false] at h
        rcases ih _ h with heq | ⟨hlookup, hlt⟩
        · exact Or.inl heq
        · have hbp : b.1 < p := hlt _ rfl
          have hne : (p == k) = false := by
            simp only [beq_eq_false_iff_ne]
            omega
          exact Or.inr ⟨by simp [List.lookup_cons, hne, hlookup], hlt⟩

theorem nearest?_get? {m : Marks} {pos p : Nat} {s : State} (h : m.nearest? pos = some (p, s)) :
    p ≤ pos ∧ m.get? p = some s := by
  rcases foldl_nearest _ none h with heq | ⟨hlookup, -⟩
  · cases heq
  · rw [lookup_filter (fun k => decide (k ≤ pos))] at hlookup
    split at hlookup
    · next hle => exact ⟨by simpa using hle, hlookup⟩
    · cases hlookup

theorem exists_foldl_nearest (entries : List (Nat × State)) (best : Option (Nat × State))
    {e : Nat × State} (he : best = some e ∨ e ∈ entries) :
    ∃ e', entries.foldl (fun best entry => match best with
      | some b => if b.1 < entry.1 then some entry else some b
      | none => some entry) best = some e' ∧ e.1 ≤ e'.1 := by
  induction entries generalizing best e with
  | nil => exact ⟨e, he.resolve_right List.not_mem_nil, Nat.le_refl _⟩
  | cons next entries ih =>
    rw [List.foldl_cons]
    rcases he with rfl | he
    · by_cases hlt : e.1 < next.1
      · simp only [hlt, if_true]
        obtain ⟨e', hfold, hle⟩ := ih (some next) (Or.inl rfl)
        exact ⟨e', hfold, Nat.le_trans (Nat.le_of_lt hlt) hle⟩
      · simp only [hlt, if_false]
        exact ih (some e) (Or.inl rfl)
    · rcases List.mem_cons.1 he with rfl | he
      · cases best with
        | none => exact ih (some e) (Or.inl rfl)
        | some b =>
          by_cases hlt : b.1 < e.1
          · simp only [hlt, if_true]
            exact ih (some e) (Or.inl rfl)
          · simp only [hlt, if_false]
            obtain ⟨e', hfold, hle⟩ := ih (some b) (Or.inl rfl)
            exact ⟨e', hfold, Nat.le_trans (Nat.le_of_not_lt hlt) hle⟩
      · exact ih _ (Or.inr he)

/-- No mark lies between the nearest one and the position. -/
theorem exists_nearest? {m : Marks} {pos p : Nat} {s : State} (hget : m.get? p = some s)
    (hle : p ≤ pos) : ∃ e, m.nearest? pos = some e ∧ p ≤ e.1 := by
  obtain ⟨before, after, hentries, -⟩ := List.lookup_eq_some_iff.1 hget
  have hmem : (p, s) ∈ m.entries.filter (·.1 ≤ pos) :=
    List.mem_filter.2 ⟨by rw [hentries]; simp, by simpa using hle⟩
  exact exists_foldl_nearest _ none (Or.inr hmem)

/-! ### Many marks at once -/

/-- The marks with several states inserted, one after the other. -/
def insertAll (m : Marks) (entries : List (Nat × State)) : Marks :=
  entries.foldl (fun m e => m.insert e.1 e.2) m

theorem get?_insertAll_of_not_mem {entries : List (Nat × State)} {p : Nat}
    (hp : ∀ s, (p, s) ∉ entries) (m : Marks) : (m.insertAll entries).get? p = m.get? p := by
  induction entries generalizing m with
  | nil => rfl
  | cons e entries ih =>
    have hne : p ≠ e.1 := by
      rintro rfl
      exact hp e.2 (by simp)
    rw [insertAll, List.foldl_cons]
    refine (ih (fun s hs => hp s (by simp [hs])) _).trans ?_
    rw [get?_insert, if_neg hne]

/-- States that agree with one function are marked at once. -/
theorem get?_insertAll_of_mem {f : Nat → State} {entries : List (Nat × State)}
    (hf : ∀ e ∈ entries, e.2 = f e.1) {p : Nat} {s : State} (hp : (p, s) ∈ entries) (m : Marks) :
    (m.insertAll entries).get? p = some (f p) := by
  induction entries generalizing m with
  | nil => simp at hp
  | cons e entries ih =>
    have hf' : ∀ e' ∈ entries, e'.2 = f e'.1 := fun e' he' => hf e' (by simp [he'])
    rw [insertAll, List.foldl_cons]
    by_cases hrest : ∃ s', (p, s') ∈ entries
    · obtain ⟨s', hs'⟩ := hrest
      have hs : s' = s := (hf' _ hs').trans (hf _ hp).symm
      exact ih hf' (hs ▸ hs') _
    · have he : e = (p, s) := by
        rcases List.mem_cons.1 hp with h | h
        · exact h.symm
        · exact absurd ⟨s, h⟩ hrest
      refine (get?_insertAll_of_not_mem (fun s' hs' => hrest ⟨s', hs'⟩) _).trans ?_
      rw [get?_insert, he, if_pos rfl, ← hf (p, s) hp]

/-! ### Marks within a text -/

/-- No mark lies behind a position. -/
def Within (m : Marks) (size : Nat) : Prop := ∀ e ∈ m.entries, e.1 ≤ size

theorem within_empty (size : Nat) : ({} : Marks).Within size := by
  intro e he
  cases he

theorem Within.below {m : Marks} {pos size : Nat} (hle : pos ≤ size) :
    (m.below pos).Within size := by
  intro e he
  have := (List.mem_filter.1 he).2
  simp only [decide_eq_true_eq] at this
  omega

theorem Within.insertAll {m : Marks} {size : Nat} (h : m.Within size)
    {entries : List (Nat × State)} (hentries : ∀ e ∈ entries, e.1 ≤ size) :
    (m.insertAll entries).Within size := by
  induction entries generalizing m with
  | nil => exact h
  | cons e entries ih =>
    refine ih (fun e' he' => ?_) fun e' he' => hentries e' (by simp [he'])
    rcases List.mem_cons.1 he' with rfl | he'
    · exact hentries e (by simp)
    · exact h e' (List.mem_filter.1 he').1

/-! ### Marks that move -/

theorem lookup_moved (start stop inserted : Nat) (entries : List (Nat × State)) (p : Nat) :
    ((entries.filter (stop ≤ ·.1)).map fun e => (start + inserted + (e.1 - stop), e.2)).lookup p =
      if start + inserted ≤ p then entries.lookup (stop + (p - (start + inserted))) else none := by
  induction entries with
  | nil => simp
  | cons e entries ih =>
    obtain ⟨k, v⟩ := e
    by_cases hk : stop ≤ k
    · by_cases hp : p = start + inserted + (k - stop)
      · have hback : stop + (p - (start + inserted)) = k := by omega
        simp [hk, hp, show stop + (k - stop) = k by omega]
      · have hb : (p == start + inserted + (k - stop)) = false := by simpa using hp
        have hb' : start + inserted ≤ p → (stop + (p - (start + inserted)) == k) = false := by
          intro hle
          simp only [beq_eq_false_iff_ne]
          omega
        simp only [List.filter_cons, hk, decide_true, if_true, List.map_cons, List.lookup_cons, hb,
          ih]
        split_ifs with hle
        · rw [hb' hle]
        · rfl
    · have hb : (stop + (p - (start + inserted)) == k) = false := by
        simp only [beq_eq_false_iff_ne]
        omega
      simp only [List.filter_cons, hk, decide_false, Bool.false_eq_true, if_false, ih,
        List.lookup_cons, hb]

/-- **Marks move with the text**, and those of the replaced part are gone. -/
theorem get?_shift {m m' : Marks} {start stop inserted : Nat}
    (h : m.shift start stop inserted = .ok m') (p : Nat) :
    m'.get? p =
      if p < start then m.get? p
      else if start + inserted ≤ p then m.get? (stop + (p - (start + inserted))) else none := by
  unfold shift at h
  simp only at h
  split at h
  · cases h
    rw [get?, List.lookup_append, lookup_filter (fun k => decide (k < start)), lookup_moved]
    by_cases hp : p < start
    · have hle : ¬ start + inserted ≤ p := by omega
      simp [hp, hle, get?]
    · simp [hp, get?]
  · cases h

theorem shift_of_within {m : Marks} {start stop inserted size : Nat} (hm : m.Within size)
    (hstop : stop ≤ size) (hfit : start + inserted + (size - stop) < Size.bound) :
    ∃ m', m.shift start stop inserted = .ok m' := by
  have hall : ((m.entries.filter (stop ≤ ·.1)).map fun e =>
      (start + inserted + (e.1 - stop), e.2)).all (·.1 < Size.bound) = true := by
    simp only [List.all_eq_true, List.mem_map, List.mem_filter, decide_eq_true_eq]
    rintro e ⟨e', ⟨he', -⟩, rfl⟩
    have := hm e' he'
    simp only
    omega
  simp only [shift, hall, if_true]
  exact ⟨_, rfl⟩

theorem Within.shift {m m' : Marks} {start stop inserted size size' : Nat} (hm : m.Within size)
    (h : m.shift start stop inserted = .ok m') (hstart : start ≤ size')
    (hsize : start + inserted + (size - stop) ≤ size') : m'.Within size' := by
  unfold Marks.shift at h
  simp only at h
  split at h
  · cases h
    intro e he
    rcases List.mem_append.1 he with he | he
    · have := (List.mem_filter.1 he).2
      simp only [decide_eq_true_eq] at this
      omega
    · obtain ⟨e', he', rfl⟩ := List.mem_map.1 he
      have := hm e' (List.mem_filter.1 he').1
      simp only
      omega
  · cases h

end TemplateStyler.Marks
