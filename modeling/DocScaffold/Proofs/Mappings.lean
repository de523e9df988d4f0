import DocScaffold.Yaml.Reader

/-!
# Entries under a name

What is found under a name after a value has been put, and where one mapping is laid over another whose
keys differ (`get?_overlay`).
-/

namespace DocScaffold.Yaml

namespace Value

variable {name : Text} {m : Mapping}

theorem sameKey_text {k : Value} : k.sameKey (text name) = true ↔ k = text name := by
  cases k <;> simp [sameKey, keyInteger?]

theorem text_sameKey {k : Value} : (text name).sameKey k = true ↔ k = text name := by
  cases k with
  | text s => simp [sameKey, eq_comm (a := name)]
  | _ => simp [sameKey, keyInteger?]

theorem get?_nil (name : Text) : get? name [] = none := rfl

theorem get?_cons (name : Text) (k v : Value) (m : Mapping) :
    get? name ((k, v) :: m) = if k = text name then some v else get? name m := by
  rw [get?, List.find?_cons]
  dsimp only
  split
  · rename_i hk
    rw [if_pos (sameKey_text.1 hk)]
    rfl
  · rename_i hk
    rw [if_neg fun heq => by simp [sameKey_text.2 heq] at hk]
    rfl

theorem get?_put (name : Text) (k v : Value) (m : Mapping) :
    get? name (put k v m) = if k = text name then some v else get? name m := by
  induction m with
  | nil => rw [put, get?_cons]
  | cons entry rest ih =>
    obtain ⟨k', v'⟩ := entry
    rw [put]
    split
    · rename_i hsame
      rw [get?_cons, get?_cons]
      by_cases hk : k = text name
      · rw [hk] at hsame
        rw [if_pos (sameKey_text.1 hsame), if_pos hk]
      · have hk' : k' ≠ text name := by
          rintro rfl
          exact hk (text_sameKey.1 hsame)
        rw [if_neg hk', if_neg hk, if_neg hk']
    · rename_i hsame
      rw [get?_cons, get?_cons, ih]
      by_cases hk : k = text name
      · have hk' : k' ≠ text name := by
          rintro rfl
          exact hsame (text_sameKey.2 hk)
        rw [if_neg hk', if_pos hk, if_pos hk]
      · rw [if_neg hk, if_neg hk]

/-! ## Keys that differ -/

theorem get?_of_keysApart {k v : Value} (h : KeysApart ((k, v) :: m)) (hk : k = text name) :
    get? name m = none := by
  rw [get?, List.find?_eq_none.2]
  · rfl
  · rintro ⟨k', v'⟩ hmem
    have happart := (List.pairwise_cons.1 h).1 _ hmem
    rw [hk] at happart
    intro hsame
    rw [text_sameKey.2 (sameKey_text.1 hsame)] at happart
    exact absurd happart (by decide)

/-- The entries on top prevail, name by name. -/
theorem get?_overlay {top : Mapping} (h : KeysApart top) (name : Text) (base : Mapping) :
    get? name (overlay base top) = (get? name top).or (get? name base) := by
  induction top generalizing base with
  | nil => rfl
  | cons entry rest ih =>
    obtain ⟨k, v⟩ := entry
    have hrest : KeysApart rest := (List.pairwise_cons.1 h).2
    change get? name (overlay (put k v base) rest) = _
    rw [ih hrest, get?_put, get?_cons]
    by_cases hk : k = text name
    · rw [get?_of_keysApart h hk, if_pos hk, if_pos hk, Option.none_or, Option.some_or]
    · rw [if_neg hk, if_neg hk]

end Value

end DocScaffold.Yaml
