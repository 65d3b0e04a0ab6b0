import Mathlib.Data.List.Nodup
import Mathlib.Data.List.Sort

/-!
This module contains dictionaries whose items stand in the order in which their keys were first set, and which
items are left when those with the smallest values are deleted.
-/

structure Dict (κ ν : Type*) where
  items : List (κ × ν)
  keys_nodup : (items.map Prod.fst).Nodup

namespace Dict

variable {κ ν : Type*}

def empty : Dict κ ν := ⟨[], List.nodup_nil⟩

def keep (p : κ × ν → Bool) (d : Dict κ ν) : Dict κ ν :=
  ⟨d.items.filter p, d.keys_nodup.sublist (List.filter_sublist.map Prod.fst)⟩

theorem mem_keep {p : κ × ν → Bool} {d : Dict κ ν} {item : κ × ν}
    : item ∈ (d.keep p).items ↔ item ∈ d.items ∧ p item = true :=
  List.mem_filter

variable [DecidableEq κ]

def get (d : Dict κ ν) (key : κ) : Option ν := (d.items.find? fun item => item.1 = key).map Prod.snd

def delete (d : Dict κ ν) (key : κ) : Dict κ ν := d.keep fun item => item.1 ≠ key

def overwrite (key : κ) (value : ν) (item : κ × ν) : κ × ν := if item.1 = key then (key, value) else item

omit [DecidableEq κ] in
theorem nodup_concat {items : List (κ × ν)} {key : κ} (h : (items.map Prod.fst).Nodup)
    (hkey : key ∉ items.map Prod.fst) (value : ν) : ((items ++ [(key, value)]).map Prod.fst).Nodup := by
  rw [List.map_append, List.nodup_append]
  refine ⟨h, List.nodup_singleton key, ?_⟩
  intro other hother key' hkey' heq
  rw [List.map_singleton, List.mem_singleton] at hkey'
  rw [heq, hkey'] at hother
  exact hkey hother

theorem map_fst_overwrite (key : κ) (value : ν) (items : List (κ × ν))
    : (items.map (overwrite key value)).map Prod.fst = items.map Prod.fst := by
  rw [List.map_map]
  apply List.map_congr_left
  intro item _
  rw [Function.comp_apply, overwrite]
  split
  . next heq => exact heq.symm
  . rfl

def set (d : Dict κ ν) (key : κ) (value : ν) : Dict κ ν :=
  if h : key ∈ d.items.map Prod.fst then
    ⟨d.items.map (overwrite key value), map_fst_overwrite key value d.items ▸ d.keys_nodup⟩
  else
    ⟨d.items ++ [(key, value)], nodup_concat d.keys_nodup h value⟩

variable {d : Dict κ ν} {key : κ} {value : ν} {item : κ × ν}

theorem get_eq_some_iff : d.get key = some value ↔ (key, value) ∈ d.items := by
  unfold get
  rw [Option.map_eq_some_iff]
  constructor
  . rintro ⟨item, hfind, rfl⟩
    have hkey := List.find?_some hfind
    rw [decide_eq_true_iff] at hkey
    rw [← hkey]
    exact List.mem_of_find?_eq_some hfind
  . intro hmem
    cases hfind : d.items.find? fun item => item.1 = key with
    | none =>
      have hne := List.find?_eq_none.mp hfind _ hmem
      exact absurd (decide_eq_true rfl) hne
    | some found =>
      have hkey := List.find?_some hfind
      rw [decide_eq_true_iff] at hkey
      have heq := List.inj_on_of_nodup_map d.keys_nodup (List.mem_of_find?_eq_some hfind) hmem hkey
      exact ⟨found, rfl, by rw [heq]⟩

theorem mem_set : item ∈ (d.set key value).items ↔ item = (key, value) ∨ item.1 ≠ key ∧ item ∈ d.items := by
  unfold set
  split
  . next hkey =>
    dsimp only
    rw [List.mem_map]
    constructor
    . rintro ⟨old, hold, rfl⟩
      unfold overwrite
      by_cases heq : old.1 = key
      . rw [if_pos heq]
        exact Or.inl rfl
      . rw [if_neg heq]
        exact Or.inr ⟨heq, hold⟩
    . rintro (rfl | ⟨hne, hold⟩)
      . rcases List.mem_map.mp hkey with ⟨old, hold, heq⟩
        exact ⟨old, hold, if_pos heq⟩
      . exact ⟨item, hold, if_neg hne⟩
  . next hkey =>
    rw [List.mem_append, List.mem_singleton, or_comm]
    apply or_congr_right
    constructor
    . intro hold
      refine ⟨?_, hold⟩
      intro heq
      exact hkey (heq ▸ List.mem_map_of_mem hold)
    . exact And.right

theorem get_set_self : (d.set key value).get key = some value := get_eq_some_iff.mpr (mem_set.mpr (Or.inl rfl))

theorem get_set_ne {key' : κ} (hne : key' ≠ key) : (d.set key value).get key' = d.get key' := by
  apply Option.ext
  intro value'
  rw [get_eq_some_iff, get_eq_some_iff, mem_set]
  constructor
  . rintro (heq | ⟨_, hmem⟩)
    . exact absurd (congrArg Prod.fst heq) hne
    . exact hmem
  . exact fun hmem => Or.inr ⟨hne, hmem⟩

theorem mem_delete : item ∈ (d.delete key).items ↔ item ∈ d.items ∧ item.1 ≠ key := by
  unfold delete
  rw [mem_keep, decide_eq_true_iff]

theorem mem_foldl_delete {gone : List (κ × ν)}
    : item ∈ (gone.foldl (fun d other => d.delete other.1) d).items
        ↔
      item ∈ d.items ∧ ∀ other ∈ gone, item.1 ≠ other.1 := by
  induction gone generalizing d with
  | nil => exact (and_iff_left nofun).symm
  | cons other gone ih => rw [List.foldl_cons, ih, mem_delete, and_assoc, List.forall_mem_cons]

omit [DecidableEq κ] in
theorem length_keep_le (p : κ × ν → Bool) (d : Dict κ ν) : (d.keep p).items.length ≤ d.items.length :=
  List.length_filter_le _ _

theorem length_set_le (d : Dict κ ν) (key : κ) (value : ν) : (d.set key value).items.length ≤ d.items.length + 1 := by
  unfold set
  split
  . exact (List.length_map _).le.trans (Nat.le_succ _)
  . exact (List.length_append).le

theorem length_foldl_delete_le (d : Dict κ ν) (gone : List (κ × ν))
    : (gone.foldl (fun d other => d.delete other.1) d).items.length ≤ d.items.length := by
  induction gone generalizing d with
  | nil => exact le_rfl
  | cons other gone ih => exact (ih (d.delete other.1)).trans (length_keep_le _ d)

theorem length_foldl_delete_lt {gone : List (κ × ν)} (hne : gone ≠ []) (hmem : ∀ item ∈ gone, item ∈ d.items)
    : (gone.foldl (fun d other => d.delete other.1) d).items.length < d.items.length := by
  cases gone with
  | nil => exact absurd rfl hne
  | cons other gone =>
    apply (length_foldl_delete_le (d.delete other.1) gone).trans_lt
    unfold delete keep
    rw [List.length_filter_lt_length_iff_exists]
    exact ⟨other, hmem other List.mem_cons_self, by simp⟩

section

variable [LinearOrder ν]

/--
`heapq.nsmallest` by the values.
-/
def nsmallest (n : Nat) (items : List (κ × ν)) : List (κ × ν) :=
  (items.insertionSort fun a b => a.2 ≤ b.2).take n

omit [DecidableEq κ] in
theorem mem_of_mem_nsmallest {n : Nat} {items : List (κ × ν)} {item : κ × ν} (h : item ∈ nsmallest n items)
    : item ∈ items :=
  (List.mem_insertionSort _).mp (List.mem_of_mem_take h)

omit [DecidableEq κ] in
/--
If there are at most `max` items with `p`, and `p` holds of all values above one that it holds of, then they are
among the `max` items that are left.
-/
theorem notMem_nsmallest {p : κ × ν → Bool} {items : List (κ × ν)} {max : Nat}
    (hup : ∀ a b : κ × ν, a.2 ≤ b.2 → p a = true → p b = true) (hcount : items.countP p ≤ max)
    {item : κ × ν} (hitem : p item = true) : item ∉ nsmallest (items.length - max) items := by
  intro hmem
  unfold nsmallest at hmem
  generalize hsort : items.insertionSort (fun a b => a.2 ≤ b.2) = sorted at hmem
  have hperm : sorted.Perm items := hsort ▸ List.perm_insertionSort _ items
  have hsorted : sorted.Pairwise fun a b => a.2 ≤ b.2 := by
    have : Std.Total fun a b : κ × ν => a.2 ≤ b.2 := ⟨fun a b => le_total a.2 b.2⟩
    have : IsTrans (κ × ν) fun a b => a.2 ≤ b.2 := ⟨fun _ _ _ => le_trans⟩
    exact hsort ▸ List.pairwise_insertionSort _ _
  generalize hn : items.length - max = n at hmem
  rw [← List.take_append_drop n sorted] at hsorted
  -- all that is left stands behind the item, so it would be more than `max` with the item
  have hleft : ∀ other ∈ sorted.drop n, p other = true := fun other hother =>
    hup item other ((List.pairwise_append.mp hsorted).2.2 item hmem other hother) hitem
  have hsplit : items.countP p = (sorted.take n).countP p + (sorted.drop n).countP p := by
    rw [← List.countP_append, List.take_append_drop, hperm.countP_eq]
  have htaken : 0 < (sorted.take n).countP p := List.countP_pos_iff.mpr ⟨item, hmem, hitem⟩
  have hpos : 0 < (sorted.take n).length := List.length_pos_of_mem hmem
  rw [List.countP_eq_length.mpr hleft, List.length_drop, hperm.length_eq] at hsplit
  rw [List.length_take, hperm.length_eq] at hpos
  omega

end

end Dict
