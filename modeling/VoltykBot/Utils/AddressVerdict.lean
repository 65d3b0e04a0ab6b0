import VoltykBot.Utils.RouterAddress

/-!
This module contains when `is_valid_ip_or_domain` gives a verdict, and when `check_router_http` reads an address
that it accepted in the same way.
-/

namespace RouterAddress

def GivesVerdict (address : String) : Prop :=
  ∃ check, isValidIpOrDomain address = some check ∧
    ∀ stripped host port type, check = .valid stripped host (some port) type → 1 ≤ port ∧ port ≤ 65535

/--
If digits are all that stands behind the last colon, then they are decimal ones and not too many.
-/
def PortReadable (address : String) : Prop :=
  let address := PyText.strip address.toList
  let port := (rsplitColon address).2
  ' ' ∉ address → ':' ∈ address → port ≠ [] → port.all PyText.isDigit = true →
    port.all PyText.isDecimal = true ∧ port.length ≤ PyText.maxStrDigits

theorem checkDomain_valid {address host stripped host' : List Char} {port port' : Option Nat} {type : AddressType}
    (h : checkDomain address host port = .valid stripped host' port' type)
    : stripped = address ∧ host' = host ∧ port' = port ∧ isDomain host = true := by
  unfold checkDomain at h
  split at h
  . next hdomain =>
    cases h
    exact ⟨rfl, rfl, rfl, hdomain⟩
  . cases h

theorem checkHost_valid {address host stripped host' : List Char} {port port' : Option Nat} {type : AddressType}
    (h : checkHost address host port = .valid stripped host' port' type)
    : stripped = address ∧ host' = host ∧ port' = port ∧
        ((ipGroups host).isSome = true ∨ isDomain host = true) := by
  unfold checkHost at h
  split at h
  . next groups hgroups =>
    have hsome : (ipGroups host).isSome = true := by
      rw [hgroups]
      rfl
    split at h
    . split at h
      . split at h
        . cases h
        . cases h
          exact ⟨rfl, rfl, rfl, Or.inl hsome⟩
      . cases h
        exact ⟨rfl, rfl, rfl, Or.inl hsome⟩
    . obtain ⟨haddress, hhost, hport, hdomain⟩ := checkDomain_valid h
      exact ⟨haddress, hhost, hport, Or.inr hdomain⟩
  . obtain ⟨haddress, hhost, hport, hdomain⟩ := checkDomain_valid h
    exact ⟨haddress, hhost, hport, Or.inr hdomain⟩

theorem isValidIpOrDomain_valid {address : String} {stripped host : List Char} {port : Option Nat}
    {type : AddressType} (h : isValidIpOrDomain address = some (.valid stripped host port type))
    : stripped = PyText.strip address.toList ∧ splitPort stripped = some (host, port) ∧ PortInRange port ∧
        ((ipGroups host).isSome = true ∨ isDomain host = true) := by
  unfold isValidIpOrDomain at h
  dsimp only at h
  split at h
  . cases h
  . obtain ⟨⟨host', port'⟩, hsplit, hcheck⟩ := Option.map_eq_some_iff.mp h
    split at hcheck
    . next hrange =>
      obtain ⟨rfl, rfl, rfl, hhost⟩ := checkHost_valid hcheck
      exact ⟨rfl, hsplit, hrange, hhost⟩
    . cases hcheck

theorem splitPort_isSome_iff (address : List Char)
    : (splitPort address).isSome ↔
        (':' ∈ address → (rsplitColon address).2 ≠ [] → (rsplitColon address).2.all PyText.isDigit = true →
          (rsplitColon address).2.all PyText.isDecimal = true ∧
            (rsplitColon address).2.length ≤ PyText.maxStrDigits) := by
  unfold splitPort
  dsimp only
  split
  . next hport =>
    obtain ⟨hcolon, hne, hdigits⟩ := hport
    rw [Option.isSome_map]
    unfold PyText.int
    split
    . next hreads => exact iff_of_true rfl fun _ _ _ => hreads.2
    . next hraises =>
      refine iff_of_false Bool.false_ne_true ?_
      intro hreads
      exact hraises ⟨hne, hreads hcolon hne hdigits⟩
  . next hport =>
    refine iff_of_true rfl ?_
    intro hcolon hne hdigits
    exact absurd ⟨hcolon, hne, hdigits⟩ hport

theorem isValidIpOrDomain_isSome_iff (address : String)
    : (isValidIpOrDomain address).isSome ↔ PortReadable address := by
  unfold PortReadable isValidIpOrDomain
  dsimp only
  rw [← splitPort_isSome_iff]
  split
  . next hspace => exact iff_of_true rfl fun hnone => absurd hspace hnone
  . next hspace =>
    rw [Option.isSome_map]
    exact ⟨fun hsome _ => hsome, fun hsome => hsome hspace⟩

/--
There is a verdict if and only if `int` reads what `isdigit` let through.
-/
theorem givesVerdict_iff (address : String) : GivesVerdict address ↔ PortReadable address := by
  rw [← isValidIpOrDomain_isSome_iff]
  constructor
  . rintro ⟨check, hcheck, _⟩
    rw [hcheck]
    rfl
  . intro hsome
    obtain ⟨check, hcheck⟩ := Option.isSome_iff_exists.mp hsome
    refine ⟨check, hcheck, ?_⟩
    rintro stripped host port type rfl
    exact (isValidIpOrDomain_valid hcheck).2.2.1 port rfl

theorem not_givesVerdict_superscript : ¬ GivesVerdict "192.168.1.1:²" := by
  rintro ⟨check, hcheck, _⟩
  have hraises : isValidIpOrDomain "192.168.1.1:²" = none := by decide +kernel
  rw [hraises] at hcheck
  cases hcheck

def ReadAlike (address : String) : Prop :=
  ∀ stripped host port type, isValidIpOrDomain address = some (.valid stripped host port type) →
    routerHostPort stripped = some (host, port.getD 80)

def Accepted (address : String) : Prop :=
  ∃ stripped host port type, isValidIpOrDomain address = some (.valid stripped host port type)

def BreakBeforePort (address : String) : Prop :=
  let address := PyText.strip address.toList
  ':' ∈ address ∧ (rsplitColon address).1.getLast? = some '\n'

instance (address : String) : Decidable (BreakBeforePort address) := inferInstanceAs (Decidable (_ ∧ _))

theorem mem_label_of_isDomain {host label : List Char} (hdomain : isDomain host = true)
    (hlabel : label ∈ (beforeEnd host).splitOn '.') {c : Char} (hc : c ∈ label)
    : c = '-' ∨ c.isAlphanum = true := by
  unfold isDomain at hdomain
  simp only [Bool.and_eq_true] at hdomain
  obtain ⟨⟨⟨_, hlabels⟩, _⟩, hlast⟩ := hdomain
  cases hend : ((beforeEnd host).splitOn '.').getLast? with
  | none =>
    rw [List.getLast?_eq_none_iff] at hend
    exact absurd hend (List.splitOn_ne_nil _ _)
  | some last =>
    rw [hend] at hlast
    obtain ⟨front, hfront⟩ := List.getLast?_eq_some_iff.mp hend
    rw [hfront, List.dropLast_concat] at hlabels
    rw [hfront, List.mem_append] at hlabel
    rcases hlabel with hfront | hback
    . have hall := List.all_eq_true.mp hlabels label hfront
      unfold isLabel at hall
      simp only [Bool.and_eq_true] at hall
      have hchar := List.all_eq_true.mp hall.1.1 c hc
      rw [Bool.or_eq_true, decide_eq_true_eq] at hchar
      exact hchar.symm
    . rw [List.mem_singleton.mp hback] at hc
      have halpha := List.all_eq_true.mp hlast c hc
      unfold Char.isAlphanum
      rw [halpha]
      exact Or.inr rfl

theorem ne_of_mem_beforeEnd {host : List Char} (hhost : (ipGroups host).isSome = true ∨ isDomain host = true)
    {c : Char} (hc : c ∈ beforeEnd host) : c ≠ ':' ∧ c ≠ '\n' := by
  by_cases hdot : c = '.'
  . rw [hdot]
    decide
  . obtain ⟨part, hpart, hmem⟩ := Ipv4.exists_mem_splitOn hc hdot
    rcases hhost with hip | hdomain
    . obtain ⟨groups, hgroups⟩ := Option.isSome_iff_exists.mp hip
      obtain ⟨rfl, _, hdigits⟩ := groups_of_ipGroups hgroups
      have hdecimal := List.all_eq_true.mp (hdigits part hpart).2 c hmem
      constructor
      . rintro rfl
        exact absurd hdecimal (by decide)
      . rintro rfl
        exact absurd hdecimal (by decide)
    . rcases mem_label_of_isDomain hdomain hpart hmem with rfl | halnum
      . decide
      . constructor
        . rintro rfl
          exact absurd halnum (by decide)
        . rintro rfl
          exact absurd halnum (by decide)

theorem ne_nil_of_host {host : List Char} (hhost : (ipGroups host).isSome = true ∨ isDomain host = true)
    : host ≠ [] := by
  rintro rfl
  revert hhost
  decide

theorem beforeEnd_of_getLast? {text : List Char} (h : text.getLast? ≠ some '\n') : beforeEnd text = text := by
  unfold beforeEnd
  exact if_neg h

theorem mem_of_mem_beforeEnd {text : List Char} {c : Char} (h : c ∈ beforeEnd text) : c ∈ text := by
  unfold beforeEnd at h
  split at h
  . exact List.dropLast_subset text h
  . exact h

theorem rsplitColon_append {text : List Char} (h : ':' ∈ text)
    : (rsplitColon text).1 ++ ':' :: (rsplitColon text).2 = text := by
  obtain ⟨after, before, hreverse, hafter⟩ := List.eq_append_cons_of_mem (List.mem_reverse.mpr h)
  have htext : text = before.reverse ++ ':' :: after.reverse := by
    rw [← List.reverse_reverse text, hreverse]
    simp
  unfold rsplitColon
  rw [hreverse, PyText.takeWhile_ne hafter, PyText.dropWhile_ne hafter, List.tail_cons, htext]

theorem port_of_accepted {address host : List Char} {port : Option Nat}
    (hsplit : splitPort address = some (host, port))
    (hhost : (ipGroups host).isSome = true ∨ isDomain host = true) (hcolon : ':' ∈ address)
    : ∃ p, port = some p ∧ (rsplitColon address).1 = host ∧ (rsplitColon address).2 ≠ [] ∧
        (rsplitColon address).2.all PyText.isDecimal = true ∧ PyText.int (rsplitColon address).2 = some p := by
  unfold splitPort at hsplit
  dsimp only at hsplit
  split at hsplit
  . next hport =>
    obtain ⟨p, hint, hpair⟩ := Option.map_eq_some_iff.mp hsplit
    cases hpair
    refine ⟨p, rfl, rfl, hport.2.1, ?_, hint⟩
    unfold PyText.int at hint
    split at hint
    . next hreads => exact hreads.2.1
    . cases hint
  . next hport =>
    cases hsplit
    have hmem : ':' ∈ beforeEnd address := by
      unfold beforeEnd
      split
      . next hlast =>
        obtain ⟨front, hfront⟩ := List.getLast?_eq_some_iff.mp hlast
        rw [hfront, List.dropLast_concat]
        rw [hfront, List.mem_append] at hcolon
        exact hcolon.resolve_right (by decide)
      . exact hcolon
    exact absurd rfl (ne_of_mem_beforeEnd hhost hmem).1

theorem getLast?_of_port {address : List Char} (hcolon : ':' ∈ address) (hne : (rsplitColon address).2 ≠ [])
    (hdecimal : (rsplitColon address).2.all PyText.isDecimal = true) : address.getLast? ≠ some '\n' := by
  intro hlast
  rw [← rsplitColon_append hcolon, List.getLast?_append, List.getLast?_cons, Option.some_or,
    Option.some_inj] at hlast
  cases hend : (rsplitColon address).2.getLast? with
  | none => exact hne (List.getLast?_eq_none_iff.mp hend)
  | some c =>
    rw [hend, Option.getD_some] at hlast
    have hbreak := List.all_eq_true.mp hdecimal c (List.mem_of_getLast? hend)
    rw [hlast] at hbreak
    revert hbreak
    decide

theorem readAlike_of_accepted {address : String} {stripped host : List Char} {port : Option Nat}
    {type : AddressType} (h : isValidIpOrDomain address = some (.valid stripped host port type))
    : routerHostPort stripped = some (host, port.getD 80) ↔ ¬ BreakBeforePort address := by
  obtain ⟨hstripped, hsplit, _, hhost⟩ := isValidIpOrDomain_valid h
  unfold BreakBeforePort routerHostPort
  dsimp only
  rw [← hstripped]
  by_cases hcolon : ':' ∈ stripped
  . obtain ⟨p, rfl, hfirst, hne, hdecimal, hint⟩ := port_of_accepted hsplit hhost hcolon
    rw [beforeEnd_of_getLast? (getLast?_of_port hcolon hne hdecimal), hfirst]
    by_cases hbreak : host.getLast? = some '\n'
    . have hmem : '\n' ∈ host := List.mem_of_getLast? hbreak
      rw [if_neg (fun hread => hread.2.2.1 hmem)]
      refine iff_of_false ?_ (not_not_intro ⟨hcolon, hbreak⟩)
      intro hread
      have hsame : stripped = host := (Prod.mk.inj (Option.some.inj hread)).1
      have hparts := congrArg List.length (rsplitColon_append hcolon)
      rw [hfirst, hsame, List.length_append, List.length_cons] at hparts
      omega
    . have hmem : '\n' ∉ host := by
        intro hmem
        rw [← beforeEnd_of_getLast? hbreak] at hmem
        exact (ne_of_mem_beforeEnd hhost hmem).2 rfl
      rw [if_pos ⟨hcolon, ne_nil_of_host hhost, hmem, hne, hdecimal⟩, hint]
      exact iff_of_true rfl fun hboth => hbreak hboth.2
  . rw [if_neg (fun hread => hcolon (mem_of_mem_beforeEnd hread.1))]
    refine iff_of_true ?_ fun hboth => hcolon hboth.1
    unfold splitPort at hsplit
    dsimp only at hsplit
    rw [if_neg (fun hport => hcolon hport.1)] at hsplit
    cases hsplit
    rfl

theorem readAlike_iff (address : String) : ReadAlike address ↔ (Accepted address → ¬ BreakBeforePort address) := by
  constructor
  . rintro halike ⟨stripped, host, port, type, haccepted⟩
    exact (readAlike_of_accepted haccepted).mp (halike stripped host port type haccepted)
  . intro hnobreak stripped host port type haccepted
    exact (readAlike_of_accepted haccepted).mpr (hnobreak ⟨stripped, host, port, type, haccepted⟩)

theorem not_readAlike_breakBeforePort : ¬ ReadAlike "192.168.1.1\n:8080" := by
  intro halike
  have haccepted : isValidIpOrDomain "192.168.1.1\n:8080" =
      some (.valid "192.168.1.1\n:8080".toList "192.168.1.1\n".toList (some 8080) .ip) := by
    decide +kernel
  have hread := halike _ _ _ _ haccepted
  revert hread
  decide +kernel

end RouterAddress
