import Mathlib

/-!
# Dictionaries

A Python `dict` is a `Dict`, the list of its items in the order the keys were first set, and
`d.get(k)` is `List.lookup`.

* `Dict.set`, `Dict.pop` and `Dict.update` are the assignments; `lookup_set`, `lookup_pop` and
  `lookup_update` say what a lookup finds after them.
* A dictionary that is kept in step with a list is `l.map fun x ↦ (f x, g x)`; the
  `lookup_map` lemmas read it.
-/

open List

namespace Py

/-- A `dict`, as the list of its items. -/
abbrev Dict (κ α : Type) := List (κ × α)

namespace Dict

variable {κ α β : Type}

/-- `d[k] = v` -/
def set [DecidableEq κ] (d : Dict κ α) (k : κ) (v : α) : Dict κ α :=
  if k ∈ d.map Prod.fst then d.map fun p ↦ if p.1 = k then (k, v) else p else d ++ [(k, v)]

/-- `d.pop(k, None)`, as far as `d` is concerned -/
def pop [DecidableEq κ] (d : Dict κ α) (k : κ) : Dict κ α := d.filter (·.1 ≠ k)

/-- `d.update(e)` -/
def update [DecidableEq κ] (d e : Dict κ α) : Dict κ α := e.foldl (fun d p ↦ d.set p.1 p.2) d

variable {g : β → α} {l : List β} {f : β → κ} {k : κ} {v : α} {p : κ × α} {e : Dict κ α}

section Lookup

variable [BEq κ] [LawfulBEq κ]

theorem lookup_map_eq_none :
    (l.map fun x ↦ (f x, g x)).lookup k = none ↔ ∀ x ∈ l, f x ≠ k := by
  rw [lookup_eq_none_iff]
  constructor
  · intro h x hx heq
    have := h _ (mem_map_of_mem hx)
    simp [heq] at this
  · intro h p hp
    obtain ⟨x, hx, rfl⟩ := mem_map.1 hp
    simpa using fun heq ↦ h x hx heq.symm

theorem lookup_map_eq_some (h : (l.map fun x ↦ (f x, g x)).lookup k = some v) :
    ∃ x ∈ l, f x = k ∧ g x = v := by
  induction l with
  | nil => cases h
  | cons x l ih =>
    rw [map_cons, lookup_cons] at h
    split at h
    next heq => exact ⟨x, mem_cons_self, (beq_iff_eq.1 heq).symm, Option.some.inj h⟩
    · obtain ⟨y, hy, hf, hg⟩ := ih h
      exact ⟨y, mem_cons_of_mem _ hy, hf, hg⟩

/-- With distinct keys a lookup finds the item. -/
theorem lookup_map_of_mem (hnd : (l.map f).Nodup) {x : β} (hx : x ∈ l) :
    (l.map fun x ↦ (f x, g x)).lookup (f x) = some (g x) := by
  cases h : (l.map fun x ↦ (f x, g x)).lookup (f x) with
  | none => exact absurd rfl (lookup_map_eq_none.1 h x hx)
  | some =>
    obtain ⟨y, hy, hf, rfl⟩ := lookup_map_eq_some h
    rw [inj_on_of_nodup_map hnd hy hx hf]

variable {d : Dict κ α}

theorem lookup_of_mem (hd : (d.map Prod.fst).Nodup) (hp : p ∈ d) :
    d.lookup p.1 = some p.2 := by
  simpa using lookup_map_of_mem (f := Prod.fst) (g := Prod.snd) hd hp

/-- Renaming keys does not disturb a key that is the image of itself only. -/
theorem lookup_map_of_iff {l : List (κ × β)} {f : κ → κ} (h : ∀ k', f k' = k ↔ k' = k) :
    (l.map fun p ↦ (f p.1, g p.2)).lookup k = (l.lookup k).map g := by
  induction l with
  | nil => rfl
  | cons p l ih =>
    obtain ⟨k', x⟩ := p
    rw [map_cons, lookup_cons, lookup_cons, ih]
    by_cases hk : k' = k
    · rw [beq_iff_eq.2 ((h k').2 hk).symm, beq_iff_eq.2 hk.symm]
      rfl
    · rw [beq_eq_false_iff_ne.2 fun he ↦ hk ((h k').1 he.symm), beq_eq_false_iff_ne.2 (Ne.symm hk)]

omit [LawfulBEq κ] in
theorem lookup_append :
    (d ++ e).lookup k = (d.lookup k).or (e.lookup k) := by
  induction d with
  | nil => rfl
  | cons p d ih =>
    rw [cons_append, lookup_cons, lookup_cons, ih]
    split <;> rfl

theorem mem_of_lookup (h : d.lookup k = some v) : (k, v) ∈ d := by
  obtain ⟨before, after, hd, -⟩ := List.lookup_eq_some_iff.1 h
  rw [hd]
  exact mem_append_right _ mem_cons_self

theorem lookup_filter (d : Dict κ α) (p : κ → Bool) (k : κ) :
    (d.filter fun e ↦ p e.1).lookup k = if p k then d.lookup k else none := by
  induction d with
  | nil => simp
  | cons e d ih =>
    obtain ⟨k', x⟩ := e
    rw [filter_cons]
    by_cases hk : k = k'
    · subst hk
      by_cases hp : p k = true
      · rw [if_pos hp, if_pos hp, lookup_cons, lookup_cons, beq_self_eq_true]
      · rw [if_neg hp, if_neg hp, ih, if_neg hp]
    · rw [lookup_cons, beq_eq_false_iff_ne.2 hk]
      split
      · rw [lookup_cons, beq_eq_false_iff_ne.2 hk]
        exact ih
      · exact ih

theorem lookup_eq_none_of_not_mem (h : k ∉ d.map Prod.fst) :
    d.lookup k = none := by
  rw [lookup_eq_none_iff]
  intro p hp
  exact bne_iff_ne.2 fun heq ↦ h (heq ▸ mem_map_of_mem hp)

variable [DecidableEq κ]

/-- **What a lookup finds after an assignment.** -/
theorem lookup_set (d : Dict κ α) (k k' : κ) (v : α) :
    (d.set k v).lookup k' = if k' = k then some v else d.lookup k' := by
  unfold set
  split
  next hmem =>
    induction d with
    | nil => cases hmem
    | cons p d ih =>
      obtain ⟨kp, x⟩ := p
      rw [map_cons, lookup_cons, lookup_cons]
      by_cases hk : kp = k
      · subst hk
        by_cases hk' : k' = kp
        · simp [hk']
        · simp only [if_true, beq_eq_false_iff_ne.2 hk', if_neg hk']
          by_cases hd : kp ∈ d.map Prod.fst
          · rw [ih hd, if_neg hk']
          · have hsame : (d.map fun p ↦ if p.1 = kp then (kp, v) else p) = d.map id :=
              map_congr_left fun p hp ↦ if_neg fun he ↦ hd (mem_map.2 ⟨p, hp, he⟩)
            rw [hsame, map_id]
      · have hd : k ∈ d.map Prod.fst := by
          rcases mem_cons.1 hmem with he | he
          · exact absurd he.symm hk
          · exact he
        rw [if_neg hk, ih hd]
        by_cases hk' : k' = kp
        · subst hk'
          simp [hk]
        · rw [beq_eq_false_iff_ne.2 hk']
  next hmem =>
    rw [lookup_append, lookup_cons, lookup_nil]
    by_cases hk : k' = k
    · subst hk
      rw [lookup_eq_none_of_not_mem hmem, beq_self_eq_true, if_pos rfl]
      rfl
    · rw [beq_eq_false_iff_ne.2 hk, if_neg hk]
      exact Option.or_none

theorem lookup_pop (d : Dict κ α) (k k' : κ) :
    (d.pop k).lookup k' = if k' = k then none else d.lookup k' := by
  have h := lookup_filter d (fun x ↦ decide (x ≠ k)) k'
  rw [pop, h]
  by_cases hk : k' = k
  · rw [if_neg (by simpa using hk), if_pos hk]
  · rw [if_pos (by simpa using hk), if_neg hk]

/-- After an update the new items come first. -/
theorem lookup_update (he : (e.map Prod.fst).Nodup) (k : κ) :
    (d.update e).lookup k = (e.lookup k).or (d.lookup k) := by
  induction e generalizing d with
  | nil => rfl
  | cons p e ih =>
    obtain ⟨kp, x⟩ := p
    rw [map_cons, nodup_cons] at he
    rw [update, foldl_cons, ← update, ih he.2, lookup_set, lookup_cons]
    by_cases hk : k = kp
    · subst hk
      rw [lookup_eq_none_of_not_mem he.1, if_pos rfl, beq_self_eq_true]
      rfl
    · rw [if_neg hk, beq_eq_false_iff_ne.2 hk]

/-- Several keys set to one value. -/
theorem lookup_foldl_set (ks : List κ) (v : α) (d : Dict κ α) (k : κ) :
    (ks.foldl (fun d k ↦ d.set k v) d).lookup k = if k ∈ ks then some v else d.lookup k := by
  induction ks generalizing d with
  | nil => rfl
  | cons k' ks ih =>
    rw [foldl_cons, ih, lookup_set]
    by_cases hks : k ∈ ks
    · rw [if_pos hks, if_pos (mem_cons_of_mem _ hks)]
    · by_cases hk : k = k'
      · rw [if_neg hks, if_pos hk, if_pos (hk ▸ mem_cons_self)]
      · rw [if_neg hks, if_neg hk, if_neg fun h ↦ (mem_cons.1 h).elim hk hks]

/-- How many values satisfy something after an assignment: the old value no longer counts. -/
theorem countP_set (hd : (d.map Prod.fst).Nodup) (k : κ) (v : α) (p : α → Bool) :
    (d.set k v).countP (fun e ↦ p e.2) + (if (d.lookup k).any p then 1 else 0) =
      d.countP (fun e ↦ p e.2) + (if p v then 1 else 0) := by
  induction d with
  | nil => simp [set, countP_cons]
  | cons e d ih =>
    obtain ⟨k', x⟩ := e
    rw [map_cons, nodup_cons] at hd
    by_cases hk : k = k'
    · subst hk
      have hmap : (d.map fun e ↦ if e.1 = k then (k, v) else e) = d := by
        refine map_congr_left (fun e he ↦ ?_) |>.trans d.map_id
        have hne : e.1 ≠ k := fun heq ↦ hd.1 (mem_map.2 ⟨e, he, heq⟩)
        rw [if_neg hne, id_eq]
      rw [set, if_pos (by simp), map_cons, if_pos rfl, hmap, lookup_cons, beq_self_eq_true,
        Option.any_some, countP_cons, countP_cons]
      dsimp only
      omega
    · have hcons : set ((k', x) :: d) k v = (k', x) :: set d k v := by
        rw [set, set, map_cons, map_cons, if_neg (Ne.symm hk)]
        by_cases hmem : k ∈ d.map Prod.fst
        · rw [if_pos (mem_cons_of_mem _ hmem), if_pos hmem]
        · rw [if_neg (by simpa [hk] using hmem), if_neg hmem, cons_append]
      have hlookup : List.lookup k ((k', x) :: d) = List.lookup k d := by
        rw [lookup_cons, beq_eq_false_iff_ne.2 hk]
      have := ih hd.2
      rw [hcons, hlookup, countP_cons, countP_cons]
      omega

end Lookup

section Keys

variable [DecidableEq κ]

theorem keys_set (d : Dict κ α) (k : κ) (v : α) : (d.set k v).map Prod.fst =
    if k ∈ d.map Prod.fst then d.map Prod.fst else d.map Prod.fst ++ [k] := by
  unfold set
  split
  · rw [map_map]
    refine map_congr_left fun p _ ↦ ?_
    rw [Function.comp_apply]
    split
    next h => exact h.symm
    · rfl
  · rw [map_append, map_singleton]

variable {d : Dict κ α}

/-- An assignment keeps the keys distinct. -/
theorem nodup_keys_set (hd : (d.map Prod.fst).Nodup) (k : κ) (v : α) :
    ((d.set k v).map Prod.fst).Nodup := by
  rw [keys_set]
  split
  · exact hd
  next h => exact hd.append (nodup_singleton k) (disjoint_singleton.2 h)

theorem nodup_keys_pop (hd : (d.map Prod.fst).Nodup) (k : κ) : ((d.pop k).map Prod.fst).Nodup :=
  hd.sublist (filter_sublist.map Prod.fst)

/-- The items after an assignment. -/
theorem mem_set :
    p ∈ d.set k v ↔ p = (k, v) ∨ p ∈ d ∧ p.1 ≠ k := by
  rw [set]
  split
  next hmem =>
    obtain ⟨q, hq, rfl⟩ := mem_map.1 hmem
    rw [mem_map]
    constructor
    · rintro ⟨r, hr, rfl⟩
      split
      · exact .inl rfl
      next hne => exact .inr ⟨hr, hne⟩
    · rintro (rfl | ⟨hp, hne⟩)
      · exact ⟨q, hq, if_pos rfl⟩
      · exact ⟨p, hp, if_neg hne⟩
  next hmem =>
    rw [mem_append, mem_singleton]
    constructor
    · rintro (hp | rfl)
      · exact .inr ⟨hp, fun heq ↦ hmem (heq ▸ mem_map_of_mem hp)⟩
      · exact .inl rfl
    · rintro (rfl | ⟨hp, -⟩)
      · exact .inr rfl
      · exact .inl hp

theorem update_cons (d : Dict κ α) (p : κ × α) (e : Dict κ α) :
    d.update (p :: e) = (d.set p.1 p.2).update e := rfl

/-- An assignment of distinct keys to an empty dictionary lists them. -/
theorem update_nil (h : (e.map Prod.fst).Nodup) : Dict.update [] e = e := by
  have happend : ∀ d e : Dict κ α, ((d ++ e).map Prod.fst).Nodup → d.update e = d ++ e := by
    intro d e hnodup
    induction e generalizing d with
    | nil => rw [append_nil]; rfl
    | cons p e ih =>
      have hnew : p.1 ∉ d.map Prod.fst := by
        rw [map_append, map_cons, nodup_append] at hnodup
        exact fun hmem ↦ hnodup.2.2 _ hmem _ mem_cons_self rfl
      rw [update_cons, set, if_neg hnew, ih]
      · rw [append_assoc, singleton_append]
      · rwa [append_assoc, singleton_append]
  exact happend [] e h

theorem nodup_keys_update (hd : (d.map Prod.fst).Nodup) (e : Dict κ α) :
    ((d.update e).map Prod.fst).Nodup := by
  induction e generalizing d with
  | nil => exact hd
  | cons p e ih => exact ih (nodup_keys_set hd p.1 p.2)

theorem mem_of_mem_update (h : p ∈ d.update e) : p ∈ d ∨ p ∈ e := by
  induction e generalizing d with
  | nil => exact .inl h
  | cons q e ih =>
    rcases ih h with hp | hp
    · rcases mem_set.1 hp with rfl | ⟨hp, -⟩
      · exact .inr mem_cons_self
      · exact .inl hp
    · exact .inr (mem_cons_of_mem _ hp)

theorem mem_keys_update (h : k ∈ d.map Prod.fst ∨ k ∈ e.map Prod.fst) :
    k ∈ (d.update e).map Prod.fst := by
  induction e generalizing d with
  | nil => exact h.resolve_right not_mem_nil
  | cons q e ih =>
    refine ih ?_
    have hset : k ∈ d.map Prod.fst ∨ k = q.1 → k ∈ (d.set q.1 q.2).map Prod.fst := by
      rw [keys_set]
      split
      next hmem =>
        rintro (hk | rfl)
        · exact hk
        · exact hmem
      · exact fun hk ↦ mem_append.2 (hk.imp_right mem_singleton.2)
    rcases h with hk | hk
    · exact .inl (hset (.inl hk))
    · rcases mem_cons.1 hk with hk | hk
      · exact .inl (hset (.inr hk))
      · exact .inr hk

/-- The first item of a dictionary is the only one with its key. -/
theorem pop_cons (h : ((p :: d).map Prod.fst).Nodup) :
    Dict.pop (p :: d) p.1 = d := by
  rw [map_cons, nodup_cons] at h
  rw [pop, filter_cons, if_neg (by simp), filter_eq_self]
  intro q hq
  have hne : q.1 ≠ p.1 := fun heq ↦ h.1 (heq ▸ mem_map_of_mem hq)
  simpa using hne

end Keys

/-- A key that is new goes to the end. -/
theorem set_map_of_forall_ne [DecidableEq κ] (h : ∀ x ∈ l, f x ≠ k) (v : α) :
    Dict.set (l.map fun x ↦ (f x, g x)) k v = (l.map fun x ↦ (f x, g x)) ++ [(k, v)] := by
  refine if_neg fun hmem ↦ ?_
  rw [map_map, mem_map] at hmem
  obtain ⟨x, hx, heq⟩ := hmem
  exact h x hx heq

end Dict

end Py
