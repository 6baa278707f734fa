import Accord.Keyed
import Mathlib

/-! # Keyed lists as maps

What each operation does to `get?` and to `keys`. To put a value under a key that a sorted list has
is to replace it in its place. A list that is sorted by keys has the values of each key in their old
order. -/
namespace Accord.Keyed

theorem keys_cons {κ α : Type} (key : κ) (value : α) (entries : List (κ × α)) :
    keys ((key, value) :: entries) = key :: keys entries := rfl

variable {κ α : Type} [DecidableEq κ]

theorem get?_modify_self (key : κ) (f : α → α) (entries : List (κ × α)) :
    get? key (modify key f entries) = (get? key entries).map f := by
  induction entries with
  | nil => rfl
  | cons entry rest ih =>
    obtain ⟨k, v⟩ := entry
    rw [modify] at ih
    by_cases h : key = k
    · simp [modify, get?, h]
    · simp only [modify, List.map_cons, Ne.symm h, if_false, get?, h]
      exact ih

theorem get?_modify_of_ne {key other : κ} (h : other ≠ key) (f : α → α) (entries : List (κ × α)) :
    get? other (modify key f entries) = get? other entries := by
  induction entries with
  | nil => rfl
  | cons entry rest ih =>
    obtain ⟨k, v⟩ := entry
    rw [modify] at ih
    by_cases hk : k = key
    · subst hk
      simp only [modify, List.map_cons, if_true, get?, h, if_false]
      exact ih
    · simp only [modify, List.map_cons, hk, if_false, get?]
      rw [ih]

theorem get?_erase_self (key : κ) (entries : List (κ × α)) : get? key (erase key entries) = none := by
  induction entries with
  | nil => rfl
  | cons entry rest ih =>
    obtain ⟨k, v⟩ := entry
    rw [erase] at ih
    by_cases h : k = key
    · simp only [erase, h, List.filter_cons, ne_eq, not_true_eq_false, decide_false,
        Bool.false_eq_true, if_false]
      exact ih
    · simp only [erase, h, List.filter_cons, ne_eq, not_false_eq_true, decide_true, if_true, get?,
        Ne.symm h, if_false]
      exact ih

theorem get?_erase_of_ne {key other : κ} (h : other ≠ key) (entries : List (κ × α)) :
    get? other (erase key entries) = get? other entries := by
  induction entries with
  | nil => rfl
  | cons entry rest ih =>
    obtain ⟨k, v⟩ := entry
    rw [erase] at ih
    by_cases hk : k = key
    · subst hk
      simp only [erase, List.filter_cons, ne_eq, not_true_eq_false, decide_false,
        Bool.false_eq_true, if_false, get?, h]
      exact ih
    · simp only [erase, hk, List.filter_cons, ne_eq, not_false_eq_true, decide_true, if_true, get?]
      rw [ih]

theorem mem_keys_iff {key : κ} {entries : List (κ × α)} :
    key ∈ keys entries ↔ (get? key entries).isSome = true := by
  induction entries with
  | nil => simp [keys, get?]
  | cons entry rest ih =>
    obtain ⟨k, v⟩ := entry
    rw [keys] at ih
    by_cases h : key = k
    · simp [keys, get?, h]
    · simp only [keys, List.map_cons, List.mem_cons, h, false_or, get?, if_false]
      exact ih

theorem get?_eq_none_of_not_mem {key : κ} {entries : List (κ × α)} (h : key ∉ keys entries) :
    get? key entries = none := by
  rw [mem_keys_iff] at h
  simpa using h

theorem mem_of_get? {key : κ} {value : α} {entries : List (κ × α)}
    (h : get? key entries = some value) : (key, value) ∈ entries := by
  induction entries with
  | nil => cases h
  | cons entry rest ih =>
    obtain ⟨k, v⟩ := entry
    rw [get?] at h
    split at h
    · rename_i hk
      rw [hk, Option.some.inj h]
      exact List.mem_cons_self
    · exact List.mem_cons_of_mem _ (ih h)

theorem get?_of_mem {entries : List (κ × α)} (h : (keys entries).Nodup) {key : κ} {value : α}
    (hm : (key, value) ∈ entries) : get? key entries = some value := by
  induction entries with
  | nil => cases hm
  | cons entry rest ih =>
    obtain ⟨k, v⟩ := entry
    rw [keys_cons, List.nodup_cons] at h
    rw [get?]
    rcases List.mem_cons.mp hm with he | hr
    · cases he
      rw [if_pos rfl]
    · have hne : key ≠ k := fun he => h.1 (he ▸ List.mem_map_of_mem hr)
      rw [if_neg hne]
      exact ih h.2 hr

theorem mem_keys_put [LT κ] [DecidableLT κ] {key other : κ} {value : α}
    {entries : List (κ × α)} :
    other ∈ keys (put key value entries) ↔ other = key ∨ other ∈ keys entries := by
  by_cases h : other = key
  · simp [mem_keys_iff, h, get?_put_self]
  · simp [mem_keys_iff, h, get?_put_of_ne]

theorem mem_put [LT κ] [DecidableLT κ] {key : κ} {value : α} {entry : κ × α}
    {entries : List (κ × α)} (h : entry ∈ put key value entries) :
    entry = (key, value) ∨ entry ∈ entries := by
  induction entries with
  | nil => exact .inl (List.mem_singleton.mp h)
  | cons first rest ih =>
    obtain ⟨k, v⟩ := first
    simp only [put] at h
    split at h
    · exact (List.mem_cons.mp h).imp_right (List.mem_cons_of_mem _)
    · split at h
      · exact List.mem_cons.mp h
      · rcases List.mem_cons.mp h with rfl | hr
        · exact .inr List.mem_cons_self
        · exact (ih hr).imp_right (List.mem_cons_of_mem _)

theorem pairwise_keys_put [LinearOrder κ] [DecidableLT κ] {entries : List (κ × α)}
    (h : (keys entries).Pairwise (· < ·)) (key : κ) (value : α) :
    (keys (put key value entries)).Pairwise (· < ·) := by
  induction entries with
  | nil => simp [keys, put]
  | cons entry rest ih =>
    obtain ⟨k, v⟩ := entry
    obtain ⟨hk, hrest⟩ := List.pairwise_cons.mp h
    rw [put]
    split
    · rename_i he
      subst he
      exact h
    · rename_i hne
      split
      · rename_i hlt
        refine List.pairwise_cons.mpr ⟨?_, h⟩
        intro other ho
        rcases List.mem_cons.mp ho with rfl | ho
        · exact hlt
        · exact hlt.trans (hk other ho)
      · rename_i hnlt
        refine List.pairwise_cons.mpr ⟨?_, ih hrest⟩
        intro other ho
        rcases mem_keys_put.mp ho with rfl | ho
        · exact lt_of_le_of_ne (not_lt.mp hnlt) (Ne.symm hne)
        · exact hk other ho

theorem mem_keys_foldl_put [LT κ] [DecidableLT κ] {key : κ} {entries kept : List (κ × α)} :
    key ∈ keys (entries.foldl (fun kept entry => put entry.1 entry.2 kept) kept) ↔
      key ∈ keys entries ∨ key ∈ keys kept := by
  induction entries generalizing kept with
  | nil => simp [keys]
  | cons entry rest ih =>
    rw [List.foldl_cons, ih, mem_keys_put, keys_cons, List.mem_cons]
    tauto

theorem pairwise_keys_foldl_put [LinearOrder κ] [DecidableLT κ] (entries : List (κ × α))
    {kept : List (κ × α)} (h : (keys kept).Pairwise (· < ·)) :
    (keys (entries.foldl (fun kept entry => put entry.1 entry.2 kept) kept)).Pairwise (· < ·) := by
  induction entries generalizing kept with
  | nil => exact h
  | cons entry rest ih => exact ih (pairwise_keys_put h entry.1 entry.2)

theorem get?_foldl_put [LT κ] [DecidableLT κ] (key : κ) (entries kept : List (κ × α))
    (h : (keys entries).Nodup) :
    get? key (entries.foldl (fun kept entry => put entry.1 entry.2 kept) kept) =
      (get? key entries).or (get? key kept) := by
  induction entries generalizing kept with
  | nil => simp [get?]
  | cons entry rest ih =>
    obtain ⟨k, v⟩ := entry
    obtain ⟨hn, hd⟩ := List.nodup_cons.mp h
    rw [List.foldl_cons, ih _ hd, get?]
    by_cases hk : key = k
    · subst hk
      rw [get?_eq_none_of_not_mem hn, get?_put_self, if_pos rfl]
      rfl
    · rw [get?_put_of_ne hk, if_neg hk]

theorem get?_ofList [LT κ] [DecidableLT κ] (key : κ) {entries : List (κ × α)}
    (h : (keys entries).Nodup) : get? key (ofList entries) = get? key entries := by
  rw [ofList, get?_foldl_put key entries [] h]
  simp [get?]

theorem put_last [LinearOrder κ] [DecidableLT κ] {key : κ} (value : α) {kept : List (κ × α)}
    (h : ∀ k ∈ keys kept, k < key) : put key value kept = kept ++ [(key, value)] := by
  induction kept with
  | nil => rfl
  | cons entry rest ih =>
    obtain ⟨k, v⟩ := entry
    rw [keys_cons, List.forall_mem_cons] at h
    rw [put, if_neg h.1.ne', if_neg h.1.not_gt, ih h.2, List.cons_append]

theorem foldl_put_ascending [LinearOrder κ] [DecidableLT κ] (entries kept : List (κ × α))
    (h : (keys (kept ++ entries)).Pairwise (· < ·)) :
    entries.foldl (fun kept entry => put entry.1 entry.2 kept) kept = kept ++ entries := by
  induction entries generalizing kept with
  | nil => simp
  | cons entry rest ih =>
    have hlast : ∀ k ∈ keys kept, k < entry.1 := by
      intro k hk
      rw [keys, List.map_append, List.pairwise_append] at h
      exact h.2.2 k hk entry.1 (by simp)
    rw [List.foldl_cons, put_last _ hlast, ih, List.append_assoc]
    · rfl
    · rw [List.append_assoc]
      exact h

theorem ofList_ascending [LinearOrder κ] [DecidableLT κ] {entries : List (κ × α)}
    (h : (keys entries).Pairwise (· < ·)) : ofList entries = entries :=
  foldl_put_ascending entries [] h

@[simp] theorem keys_modify (key : κ) (f : α → α) (entries : List (κ × α)) :
    keys (modify key f entries) = keys entries := by
  simp only [keys, modify, List.map_map]
  refine List.map_congr_left fun entry _ => ?_
  dsimp only [Function.comp]
  split <;> rfl

theorem modify_of_not_mem {key : κ} {entries : List (κ × α)} (h : key ∉ keys entries) (f : α → α) :
    modify key f entries = entries := by
  refine (List.map_congr_left fun entry he => ?_).trans (List.map_id entries)
  refine if_neg fun hk => h ?_
  rw [← hk]
  exact List.mem_map_of_mem he

theorem modify_modify (key : κ) (f g : α → α) (entries : List (κ × α)) :
    modify key f (modify key g entries) = modify key (f ∘ g) entries := by
  simp only [modify, List.map_map]
  refine List.map_congr_left fun entry _ => ?_
  dsimp only [Function.comp]
  split <;> rfl

section Numbers

/-- The keys ascend, so that none is there twice. -/
def Sorted (entries : List (Nat × α)) : Prop := (keys entries).Pairwise (· < ·)

theorem Sorted.nodup {entries : List (Nat × α)} (h : Sorted entries) : (keys entries).Nodup :=
  h.imp fun hlt => hlt.ne

theorem Sorted.tail {entry : Nat × α} {rest : List (Nat × α)} (h : Sorted (entry :: rest)) :
    Sorted rest := (List.pairwise_cons.mp h).2

theorem Sorted.erase {entries : List (Nat × α)} (h : Sorted entries) (key : Nat) :
    Sorted (erase key entries) :=
  List.Pairwise.sublist (List.Sublist.map _ List.filter_sublist) h

theorem Sorted.get?_of_mem {entries : List (Nat × α)} (h : Sorted entries) {key : Nat} {value : α}
    (hm : (key, value) ∈ entries) : get? key entries = some value := Keyed.get?_of_mem h.nodup hm

theorem Sorted.put {entries : List (Nat × α)} (h : Sorted entries) (key : Nat) (value : α) :
    Sorted (put key value entries) := pairwise_keys_put h key value

theorem put_of_get? {entries : List (Nat × α)} (h : Sorted entries) {key : Nat} {old : α}
    (ho : get? key entries = some old) (value : α) :
    Keyed.put key value entries = modify key (fun _ => value) entries := by
  induction entries with
  | nil => cases ho
  | cons entry rest ih =>
    obtain ⟨k, v⟩ := entry
    have hk := (List.pairwise_cons.mp h).1
    rw [Keyed.put]
    split
    · rename_i he
      subst he
      have hr := modify_of_not_mem (fun hm => (hk key hm).ne rfl) (fun _ => value)
      rw [modify] at hr
      simp only [modify, List.map_cons, if_true, hr]
    · rename_i hne
      rw [get?, if_neg hne] at ho
      have hlt : ¬ key < k := by
        intro hlt
        exact absurd (hk key (mem_keys_iff.mpr (by rw [ho]; rfl))) hlt.not_gt
      rw [if_neg hlt, ih h.tail ho]
      simp [modify, Ne.symm hne]

theorem modify_const {entries : List (Nat × α)} (h : Sorted entries) {key : Nat} {value : α}
    (hv : get? key entries = some value) (f : α → α) :
    modify key f entries = modify key (fun _ => f value) entries := by
  refine List.map_congr_left fun entry he => ?_
  split
  · rename_i hk
    subst hk
    rw [h.get?_of_mem he] at hv
    rw [← Option.some.inj hv]
  · rfl

theorem modify_of_get? {entries : List (Nat × α)} (h : Sorted entries) {key : Nat} {value : α}
    (hv : get? key entries = some value) : modify key (fun _ => value) entries = entries := by
  refine (modify_const h hv id).symm.trans ?_
  refine (List.map_congr_left fun entry _ => ?_).trans (List.map_id entries)
  split <;> rfl

end Numbers

/-! ## Sorting by keys -/

section Sorting

variable {β : Type} (key : β → Nat)

theorem key_le_trans (a b c : β) (hab : decide (key a ≤ key b) = true)
    (hbc : decide (key b ≤ key c) = true) : decide (key a ≤ key c) = true :=
  decide_eq_true ((of_decide_eq_true hab).trans (of_decide_eq_true hbc))

theorem key_le_total (a b : β) : (decide (key a ≤ key b) || decide (key b ≤ key a)) = true := by
  simpa using Nat.le_total (key a) (key b)

theorem pairwise_mergeSort (values : List β) :
    (values.mergeSort fun a b => key a ≤ key b).Pairwise fun a b => key a ≤ key b :=
  (List.pairwise_mergeSort (key_le_trans key) (key_le_total key) values).imp of_decide_eq_true

theorem filter_mergeSort (k : Nat) (values : List β) :
    (values.mergeSort fun a b => key a ≤ key b).filter (fun a => key a = k) =
      values.filter (fun a => key a = k) := by
  have hequal : (values.filter fun a => key a = k).Pairwise fun a b =>
      decide (key a ≤ key b) = true := by
    refine List.pairwise_of_forall_mem_list fun a ha b hb => decide_eq_true ?_
    rw [of_decide_eq_true (List.mem_filter.mp ha).2, of_decide_eq_true (List.mem_filter.mp hb).2]
  have hsub := (List.sublist_mergeSort (key_le_trans key) (key_le_total key) hequal
    List.filter_sublist).filter fun a => key a = k
  rw [List.filter_filter] at hsub
  simp only [Bool.and_self] at hsub
  exact (hsub.eq_of_length ((List.mergeSort_perm values _).filter _).length_eq.symm).symm

end Sorting
end Accord.Keyed
