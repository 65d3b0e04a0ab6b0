import VoltykBot.Lib.PyText

/-!
This module contains IPv4 addresses: networks, and the texts that Python's `ipaddress` reads. Only one
spelling of each address is read.
-/

namespace Ipv4

structure Network where
  address : Nat
  maskLength : Nat
  deriving DecidableEq, Repr

def ofOctets (octets : List Nat) : Nat := octets.foldl (fun n octet => n * 256 + octet) 0

def Network.contains (network : Network) (ip : Nat) : Bool :=
  ip / 2 ^ (32 - network.maskLength) = network.address / 2 ^ (32 - network.maskLength)

def parseOctet (text : List Char) : Option Nat :=
  if text = [] ∨ ¬ text.all Char.isDigit then none
  else if text.length > 3 then none
  else if text ≠ ['0'] ∧ text.head? = some '0' then none
  else if PyText.value text > 255 then none
  else some (PyText.value text)

/--
`IPv4Address(host)`; `none` where it raises.
-/
def parse (host : List Char) : Option Nat :=
  if (host.splitOn '.').length = 4 then ((host.splitOn '.').mapM parseOctet).map ofOctets else none

def IsPlain (group : List Char) : Prop :=
  group.all Char.isDigit ∧ (group = ['0'] ∨ group.head? ≠ some '0')

instance (group : List Char) : Decidable (IsPlain group) := inferInstanceAs (Decidable (_ ∧ _))

structure IsQuad (groups : List (List Char)) : Prop where
  four : groups.length = 4
  digits : ∀ group ∈ groups, group ≠ [] ∧ group.all PyText.isDecimal
  values : ∀ group ∈ groups, PyText.value group ≤ 255

instance (groups : List (List Char)) : Decidable (IsQuad groups) :=
  decidable_of_iff (groups.length = 4 ∧ (∀ group ∈ groups, group ≠ [] ∧ group.all PyText.isDecimal) ∧
    ∀ group ∈ groups, PyText.value group ≤ 255)
    ⟨fun h => ⟨h.1, h.2.1, h.2.2⟩, fun h => ⟨h.four, h.digits, h.values⟩⟩

def addressOf (groups : List (List Char)) : Nat := ofOctets (groups.map PyText.value)

theorem length_le_of_plain {group : List Char} (hplain : IsPlain group)
    (hvalue : PyText.value group ≤ 255) : group.length ≤ 3 := by
  cases group with
  | nil => exact Nat.zero_le 3
  | cons c digits =>
    cases hplain.2 with
    | inl hzero =>
      rw [hzero]
      decide
    | inr hhead =>
      have hdigit : c.isDigit = true := (List.all_eq_true.mp hplain.1) c List.mem_cons_self
      have hpos : 0 < (PyText.decimal c).getD 0 := by
        have hrange : 48 ≤ c.toNat ∧ c.toNat ≤ 57 := by
          simpa [Char.isDigit, UInt32.le_iff_toNat_le] using hdigit
        have hne : c.toNat ≠ 48 := by
          intro heq
          apply hhead
          rw [List.head?_cons, Option.some_inj]
          exact Char.toNat_inj.mp heq
        rw [PyText.decimal_of_isDigit hdigit, Option.getD_some]
        omega
      have hpow := @PyText.pow_le_value c digits hpos
      rw [List.length_cons]
      by_contra hlong
      have hmono := Nat.pow_le_pow_right (show 0 < 10 by decide) (show 3 ≤ digits.length by omega)
      omega

theorem parseOctet_of_plain {group : List Char} (hne : group ≠ []) (hplain : IsPlain group)
    (hvalue : PyText.value group ≤ 255) : parseOctet group = some (PyText.value group) := by
  have hlength := length_le_of_plain hplain hvalue
  unfold parseOctet
  rw [if_neg (by simpa [hne] using hplain.1), if_neg (by omega), if_neg, if_neg (by omega)]
  rintro ⟨hzero, hhead⟩
  exact hplain.2.elim hzero (absurd hhead)

theorem plain_of_parseOctet {group : List Char} {octet : Nat} (h : parseOctet group = some octet)
    : IsPlain group := by
  unfold parseOctet at h
  split at h
  . cases h
  . next hdigits =>
    rw [not_or, not_not] at hdigits
    split at h
    . cases h
    . split at h
      . cases h
      . next hzero =>
        refine ⟨hdigits.2, ?_⟩
        by_contra hnot
        rw [not_or, not_not] at hnot
        exact hzero hnot

theorem mapM_parseOctet {groups : List (List Char)} (hne : ∀ group ∈ groups, group ≠ [])
    (hplain : ∀ group ∈ groups, IsPlain group) (hvalues : ∀ group ∈ groups, PyText.value group ≤ 255)
    : groups.mapM parseOctet = some (groups.map PyText.value) := by
  induction groups with
  | nil => rfl
  | cons group groups ih =>
    rw [List.mapM_cons, parseOctet_of_plain (hne group List.mem_cons_self)
      (hplain group List.mem_cons_self) (hvalues group List.mem_cons_self),
      ih (fun g hg => hne g (List.mem_cons_of_mem _ hg))
        (fun g hg => hplain g (List.mem_cons_of_mem _ hg))
        (fun g hg => hvalues g (List.mem_cons_of_mem _ hg))]
    rfl

theorem plain_of_mapM {groups : List (List Char)} {octets : List Nat}
    (h : groups.mapM parseOctet = some octets) : ∀ group ∈ groups, IsPlain group := by
  induction groups generalizing octets with
  | nil => exact nofun
  | cons group groups ih =>
    rw [List.mapM_cons, Option.bind_eq_bind, Option.bind_eq_some_iff] at h
    obtain ⟨octet, hoctet, h⟩ := h
    rw [Option.bind_eq_bind, Option.bind_eq_some_iff] at h
    obtain ⟨rest, hrest, _⟩ := h
    intro g hg
    cases List.mem_cons.mp hg with
    | inl heq => exact heq ▸ plain_of_parseOctet hoctet
    | inr hmem => exact ih hrest g hmem

theorem plain_of_parse {host : List Char} {ip : Nat} (h : parse host = some ip)
    : ∀ group ∈ host.splitOn '.', IsPlain group := by
  unfold parse at h
  split at h
  . obtain ⟨octets, hoctets, _⟩ := Option.map_eq_some_iff.mp h
    exact plain_of_mapM hoctets
  . cases h

theorem exists_mem_splitOn {c sep : Char} {text : List Char} (hc : c ∈ text) (hne : c ≠ sep)
    : ∃ group ∈ text.splitOn sep, c ∈ group := by
  induction text with
  | nil => cases hc
  | cons x text ih =>
    rw [List.splitOn_cons_eq_if_modifyHead]
    split
    . next hsep =>
      have htail : c ∈ text := by
        cases List.mem_cons.mp hc with
        | inl hhead => exact absurd (hhead.trans (eq_of_beq hsep)) hne
        | inr htail => exact htail
      obtain ⟨group, hgroup, hmem⟩ := ih htail
      exact ⟨group, List.mem_cons_of_mem _ hgroup, hmem⟩
    . cases hsplit : text.splitOn sep with
      | nil => exact absurd hsplit (List.splitOn_ne_nil sep text)
      | cons first others =>
        rw [List.modifyHead_cons]
        cases List.mem_cons.mp hc with
        | inl hhead => exact ⟨_, List.mem_cons_self, hhead ▸ List.mem_cons_self⟩
        | inr htail =>
          obtain ⟨group, hgroup, hmem⟩ := ih htail
          rw [hsplit] at hgroup
          cases List.mem_cons.mp hgroup with
          | inl hfirst => exact ⟨_, List.mem_cons_self, List.mem_cons_of_mem _ (hfirst ▸ hmem)⟩
          | inr hother => exact ⟨group, List.mem_cons_of_mem _ hother, hmem⟩

theorem isDigit_of_plain {host : List Char} (hplain : ∀ group ∈ host.splitOn '.', IsPlain group) {c : Char}
    (hc : c ∈ host) (hne : c ≠ '.') : c.isDigit = true := by
  obtain ⟨group, hgroup, hmem⟩ := exists_mem_splitOn hc hne
  exact List.all_eq_true.mp (hplain group hgroup).1 c hmem

theorem parse_of_plain {host : List Char} (hquad : IsQuad (host.splitOn '.'))
    (hplain : ∀ group ∈ host.splitOn '.', IsPlain group)
    : parse host = some (addressOf (host.splitOn '.')) := by
  unfold parse
  rw [if_pos hquad.four, mapM_parseOctet (fun group hgroup => (hquad.digits group hgroup).1) hplain
    hquad.values]
  rfl

end Ipv4
