import Mathlib.Data.List.Basic
import Mathlib.Logic.Function.Basic

/-!
This module contains two levels of caches whose entries expire: a bounded ordered dictionary in front,
and a store behind it that keeps a record of everything it was given. A copy that the front holds was
kept by the store when it was taken, which bounds how long an outdated value can be seen.
-/

namespace TtlCache

variable {κ ν : Type*} [DecidableEq κ]

structure Entry (κ ν : Type*) where
  key : κ
  cachedAt : Int
  value : ν
  deriving DecidableEq

abbrev Front (κ ν : Type*) := List (Entry κ ν)

namespace Front

variable (front : Front κ ν) (key : κ)

def lookup : Option (Entry κ ν) := front.find? fun entry => entry.key = key

def fresh (ttl now : Int) : Option ν :=
  match front.lookup key with
  | some entry => if now - entry.cachedAt < ttl then some entry.value else none
  | none => none

def erase : Front κ ν := front.filter fun entry => entry.key ≠ key

def touch : Front κ ν := front.erase key ++ (front.lookup key).toList

def put (now : Int) (value : ν) : Front κ ν :=
  front.erase key ++ [{ key, cachedAt := now, value }]

variable {front : Front κ ν} {key : κ}

theorem mem_of_lookup {entry : Entry κ ν} (h : front.lookup key = some entry)
    : entry ∈ front ∧ entry.key = key := by
  unfold lookup at h
  have hkey := List.find?_some h
  exact ⟨List.mem_of_find?_eq_some h, of_decide_eq_true hkey⟩

theorem exists_of_fresh {ttl now : Int} {value : ν} (h : front.fresh key ttl now = some value)
    : ∃ entry ∈ front, entry.key = key ∧ entry.value = value ∧ now - entry.cachedAt < ttl := by
  unfold fresh at h
  split at h
  . next entry hlookup =>
    split at h
    . next hage =>
      injection h with h
      have ⟨hmem, hkey⟩ := mem_of_lookup hlookup
      exact ⟨entry, hmem, hkey, h, hage⟩
    . cases h
  . cases h

theorem mem_of_mem_erase {entry : Entry κ ν} (h : entry ∈ front.erase key) : entry ∈ front :=
  List.mem_of_mem_filter h

theorem mem_of_mem_touch {entry : Entry κ ν} (h : entry ∈ front.touch key) : entry ∈ front := by
  rcases List.mem_append.mp h with herase | hlookup
  . exact mem_of_mem_erase herase
  . rw [Option.mem_toList] at hlookup
    exact (mem_of_lookup hlookup).1

theorem eq_or_mem_of_mem_put {now : Int} {value : ν} {entry : Entry κ ν}
    (h : entry ∈ front.put key now value) : entry = { key, cachedAt := now, value } ∨ entry ∈ front := by
  rcases List.mem_append.mp h with herase | hnew
  . exact Or.inr (mem_of_mem_erase herase)
  . exact Or.inl (List.mem_singleton.mp hnew)

theorem lookup_erase_self : (front.erase key).lookup key = none := by
  unfold lookup erase
  rw [List.find?_eq_none]
  intro entry hentry
  simpa using (List.mem_filter.mp hentry).2

theorem lookup_erase_of_ne {key' : κ} (h : key' ≠ key)
    : (front.erase key).lookup key' = front.lookup key' := by
  unfold lookup erase
  rw [List.find?_filter]
  congr 1
  funext entry
  rw [decide_eq_decide]
  constructor
  . exact fun hboth => of_decide_eq_true hboth.2
  . intro hkey
    rw [decide_eq_true_eq, decide_eq_true_eq, hkey]
    exact ⟨h, rfl⟩

theorem lookup_append (front' : Front κ ν)
    : (front ++ front' : Front κ ν).lookup key = (front.lookup key).or (front'.lookup key) :=
  List.find?_append

theorem lookup_put_self (now : Int) (value : ν)
    : (front.put key now value).lookup key = some { key, cachedAt := now, value } := by
  unfold put
  rw [lookup_append, lookup_erase_self, Option.none_or]
  exact List.find?_cons_of_pos (decide_eq_true rfl)

theorem lookup_put_of_ne {key' : κ} (h : key' ≠ key) (now : Int) (value : ν)
    : (front.put key now value).lookup key' = front.lookup key' := by
  unfold put
  rw [lookup_append, lookup_erase_of_ne h]
  have hnew : lookup [{ key, cachedAt := now, value }] key' = none :=
    List.find?_cons_of_neg (by simpa using h.symm)
  rw [hnew, Option.or_none]

theorem lookup_touch (key' : κ) : (front.touch key).lookup key' = front.lookup key' := by
  unfold touch
  rw [lookup_append]
  by_cases h : key' = key
  . rw [h, lookup_erase_self, Option.none_or]
    cases hlookup : front.lookup key with
    | none => rfl
    | some entry => exact List.find?_cons_of_pos (decide_eq_true (mem_of_lookup hlookup).2)
  . rw [lookup_erase_of_ne h]
    cases hlookup : front.lookup key with
    | none => exact Option.or_none
    | some entry =>
      have hother : lookup [entry] key' = none :=
        List.find?_cons_of_neg (by simpa [(mem_of_lookup hlookup).2] using Ne.symm h)
      rw [Option.toList_some, hother, Option.or_none]

theorem lookup_cons_of_ne {entry : Entry κ ν} (h : entry.key ≠ key)
    : lookup (entry :: front) key = front.lookup key :=
  List.find?_cons_of_neg (by simpa using h)

end Front

structure Record (κ ν : Type*) where
  key : κ
  value : ν
  endsAt : Int
  deriving DecidableEq

namespace Record

def ended (key : κ) (now : Int) (record : Record κ ν) : Record κ ν :=
  -- a record ends at once when its key is written to
  if record.key = key then { record with endsAt := min record.endsAt now } else record

variable {key : κ} {now t : Int}

@[simp]
theorem ended_key (record : Record κ ν) : (record.ended key now).key = record.key := by
  unfold ended
  split
  . rfl
  . rfl

@[simp]
theorem ended_value (record : Record κ ν)
    : (record.ended key now).value = record.value := by
  unfold ended
  split
  . rfl
  . rfl

theorem ended_of_ne {record : Record κ ν} (h : record.key ≠ key)
    : record.ended key now = record := by
  unfold ended
  rw [if_neg h]

theorem le_ended {record : Record κ ν} (ht : t ≤ record.endsAt) (hnow : t ≤ now)
    : t ≤ (record.ended key now).endsAt := by
  unfold ended
  split
  . dsimp only
    omega
  . exact ht

end Record

/--
A store whose entries expire. No operation reads `records`.
-/
structure Store (κ ν : Type*) where
  live : κ → Option (ν × Int)
  records : List (Record κ ν)

namespace Store

def empty : Store κ ν := { live := fun _ => none, records := [] }

def get (store : Store κ ν) (key : κ) (now : Int) : Option ν :=
  match store.live key with
  | some (value, expiresAt) => if now < expiresAt then some value else none
  | none => none

def set (store : Store κ ν) (key : κ) (value : ν) (now ttl : Int) : Store κ ν :=
  {
    live := Function.update store.live key (some (value, now + ttl))
    records := { key, value, endsAt := now + ttl } :: store.records.map (Record.ended key now)
  }

def delete (store : Store κ ν) (key : κ) (now : Int) : Store κ ν :=
  {
    live := Function.update store.live key none
    records := store.records.map (Record.ended key now)
  }

def Recorded (store : Store κ ν) : Prop :=
  ∀ key value expiresAt, store.live key = some (value, expiresAt) →
    { key, value, endsAt := expiresAt } ∈ store.records

def KeptSince (store : Store κ ν) (key : κ) (value : ν) (t : Int) : Prop :=
  ∃ record ∈ store.records, record.key = key ∧ record.value = value ∧ t ≤ record.endsAt

def KeepsOnly (store : Store κ ν) (key : κ) (p : ν → Prop) (t : Int) : Prop :=
  ∀ record ∈ store.records, record.key = key → p record.value ∨ record.endsAt ≤ t

instance (store : Store κ ν) (key : κ) (p : ν → Prop) [DecidablePred p] (t : Int)
    : Decidable (store.KeepsOnly key p t) :=
  inferInstanceAs (Decidable (∀ record ∈ store.records, _ → _))

variable {store : Store κ ν} {key key' : κ} {value value' : ν} {now t ttl : Int} {p : ν → Prop}

omit [DecidableEq κ] in
theorem get_eq_some (h : store.get key now = some value)
    : ∃ expiresAt, store.live key = some (value, expiresAt) ∧ now < expiresAt := by
  unfold get at h
  split at h
  . next value' expiresAt hlive =>
    split at h
    . next hage =>
      injection h with h
      exact ⟨expiresAt, h ▸ hlive, hage⟩
    . cases h
  . cases h

omit [DecidableEq κ] in
theorem recorded_empty : (empty : Store κ ν).Recorded := by
  intro _ _ _ h
  cases h

theorem Recorded.mem_ended (h : store.Recorded) {expiresAt : Int} (hne : key' ≠ key)
    (hlive : store.live key' = some (value', expiresAt))
    : { key := key', value := value', endsAt := expiresAt } ∈ store.records.map (Record.ended key now)
    := by
  have hmem := h key' value' expiresAt hlive
  have hended := List.mem_map_of_mem (f := Record.ended key now) hmem
  rwa [Record.ended_of_ne hne] at hended

theorem Recorded.set (h : store.Recorded) : (store.set key value now ttl).Recorded := by
  intro key' value' expiresAt hlive
  unfold Store.set at hlive ⊢
  dsimp only at hlive ⊢
  by_cases heq : key' = key
  . subst heq
    rw [Function.update_self] at hlive
    injection hlive with hlive
    injection hlive with hvalue hexpires
    rw [← hvalue, ← hexpires]
    exact List.mem_cons_self
  . rw [Function.update_of_ne heq] at hlive
    exact List.mem_cons_of_mem _ (h.mem_ended heq hlive)

theorem Recorded.delete (h : store.Recorded) : (store.delete key now).Recorded := by
  intro key' value' expiresAt hlive
  unfold Store.delete at hlive ⊢
  dsimp only at hlive ⊢
  by_cases heq : key' = key
  . subst heq
    rw [Function.update_self] at hlive
    cases hlive
  . rw [Function.update_of_ne heq] at hlive
    exact h.mem_ended heq hlive

theorem KeptSince.ended (key : κ) (h : store.KeptSince key' value' t) (hnow : t ≤ now)
    : ∃ record ∈ store.records.map (Record.ended key now),
        record.key = key' ∧ record.value = value' ∧ t ≤ record.endsAt := by
  rcases h with ⟨record, hmem, hkey, hvalue, ht⟩
  refine ⟨Record.ended key now record, List.mem_map_of_mem hmem, ?_, ?_, Record.le_ended ht hnow⟩
  . rw [Record.ended_key, hkey]
  . rw [Record.ended_value, hvalue]

theorem KeptSince.set (h : store.KeptSince key' value' t) (hnow : t ≤ now)
    : (store.set key value now ttl).KeptSince key' value' t := by
  rcases h.ended key hnow with ⟨record, hmem, hrecord⟩
  exact ⟨record, List.mem_cons_of_mem _ hmem, hrecord⟩

theorem KeptSince.delete (h : store.KeptSince key' value' t) (hnow : t ≤ now)
    : (store.delete key now).KeptSince key' value' t :=
  h.ended key hnow

theorem keptSince_set (hnow : t ≤ now) (httl : 0 ≤ ttl)
    : (store.set key value now ttl).KeptSince key value t := by
  refine ⟨{ key, value, endsAt := now + ttl }, List.mem_cons_self, rfl, rfl, ?_⟩
  dsimp only
  omega

omit [DecidableEq κ] in
theorem Recorded.keptSince_of_get (h : store.Recorded) (hget : store.get key now = some value)
    (hnow : t ≤ now) : store.KeptSince key value t := by
  rcases get_eq_some hget with ⟨expiresAt, hlive, hage⟩
  refine ⟨_, h key value expiresAt hlive, rfl, rfl, ?_⟩
  dsimp only
  omega

omit [DecidableEq κ] in
theorem KeepsOnly.of_keptSince (h : store.KeepsOnly key p t) {t' : Int}
    (hkept : store.KeptSince key value t') (hlt : t < t') : p value := by
  rcases hkept with ⟨record, hmem, hkey, rfl, ht⟩
  rcases h record hmem hkey with hp | hended
  . exact hp
  . omega

omit [DecidableEq κ] in
theorem KeepsOnly.of_get (h : store.KeepsOnly key p t) (hrecorded : store.Recorded)
    (hget : store.get key now = some value) (hle : t ≤ now) : p value := by
  rcases get_eq_some hget with ⟨expiresAt, hlive, hage⟩
  rcases h _ (hrecorded key value expiresAt hlive) rfl with hp | hended
  . exact hp
  . dsimp only at hended
    omega

end Store

end TtlCache
