import VoltykBot.Lib.Ipv4

/-!
This module contains the router addresses that users give: `is_valid_ip_or_domain` reads them when they are
entered, and `check_router_http` before each request. It shows which spellings of a blocked address pass.
-/

namespace RouterAddress

def ssrfBlockedNetworks : List Ipv4.Network := [
  { address := Ipv4.ofOctets [127, 0, 0, 0], maskLength := 8 },
  { address := Ipv4.ofOctets [169, 254, 0, 0], maskLength := 16 },
  { address := Ipv4.ofOctets [0, 0, 0, 0], maskLength := 8 },
  { address := Ipv4.ofOctets [240, 0, 0, 0], maskLength := 4 },
  { address := Ipv4.ofOctets [255, 255, 255, 255], maskLength := 32 }]

def isBlocked (ip : Nat) : Bool := ssrfBlockedNetworks.any (·.contains ip)

/--
The text that a pattern with `$` has to match: this also holds before a line break at the end.
-/
def beforeEnd (text : List Char) : List Char :=
  if text.getLast? = some '\n' then text.dropLast else text

/--
`rsplit(":", 1)` of a text with a colon
-/
def rsplitColon (text : List Char) : List Char × List Char :=
  ((text.reverse.dropWhile (· ≠ ':')).tail.reverse, (text.reverse.takeWhile (· ≠ ':')).reverse)

/-! ## `is_valid_ip_or_domain` -/

/--
The groups of `_IP_RE`
-/
def ipGroups (host : List Char) : Option (List (List Char)) :=
  let groups := (beforeEnd host).splitOn '.'
  if groups.length = 4 ∧ ∀ group ∈ groups, group ≠ [] ∧ group.length ≤ 3 ∧ group.all PyText.isDecimal then
    some groups
  else
    none

def isLabel (label : List Char) : Bool :=
  label.all (fun c => c.isAlphanum || c = '-') && label.head?.any (·.isAlphanum) &&
    label.getLast?.any (·.isAlphanum)

/--
`_DOMAIN_RE`
-/
def isDomain (host : List Char) : Bool :=
  let labels := (beforeEnd host).splitOn '.'
  let last := labels.getLast?.getD []
  2 ≤ labels.length && labels.dropLast.all isLabel && 2 ≤ last.length && last.all (·.isAlpha)

inductive AddressType where
  | ip
  | domain
  deriving DecidableEq, Repr

inductive AddressCheck where
  | invalid (error : String)
  | valid (address host : List Char) (port : Option Nat) (type : AddressType)
  deriving DecidableEq, Repr

/--
`none` where `int` raises.
-/
def splitPort (address : List Char) : Option (List Char × Option Nat) :=
  let parts := rsplitColon address
  if ':' ∈ address ∧ parts.2 ≠ [] ∧ parts.2.all PyText.isDigit then
    (PyText.int parts.2).map fun port => (parts.1, some port)
  else
    some (address, none)

def PortInRange (port : Option Nat) : Prop := ∀ p ∈ port, 1 ≤ p ∧ p ≤ 65535

instance (port : Option Nat) : Decidable (PortInRange port) := inferInstanceAs (Decidable (∀ p ∈ port, _))

def checkDomain (address host : List Char) (port : Option Nat) : AddressCheck :=
  if isDomain host then
    .valid address host port .domain
  else
    .invalid "Невірний формат адреси. Приклад: 192.168.1.1 або router.example.com"

def checkHost (address host : List Char) (port : Option Nat) : AddressCheck :=
  match ipGroups host with
  | some groups =>
    if ∀ group ∈ groups, PyText.value group ≤ 255 then
      match Ipv4.parse host with
      | some ip => if isBlocked ip then .invalid "Недопустима адреса" else .valid address host port .ip
      -- a `ValueError` is passed over
      | none => .valid address host port .ip
    else
      checkDomain address host port
  | none => checkDomain address host port

def isValidIpOrDomain (address : String) : Option AddressCheck :=
  let address := PyText.strip address.toList
  if ' ' ∈ address then
    some (.invalid "Адреса не може містити пробіли")
  else
    (splitPort address).map fun split =>
      if PortInRange split.2 then
        checkHost address split.1 split.2
      else
        .invalid "Порт має бути від 1 до 65535"

/-! ## `check_router_http` -/

def routerHostPort (routerIp : List Char) : Option (List Char × Nat) :=
  let parts := rsplitColon (beforeEnd routerIp)
  if ':' ∈ beforeEnd routerIp ∧ parts.1 ≠ [] ∧ '\n' ∉ parts.1 ∧ parts.2 ≠ [] ∧
      parts.2.all PyText.isDecimal then
    (PyText.int parts.2).map fun port => (parts.1, port)
  else
    some (routerIp, 80)

def isSsrfBlocked (host : List Char) : Bool :=
  match Ipv4.parse host with
  | some ip => isBlocked ip
  | none => false

inductive RouterCheck where
  | disabled
  | raised
  | blocked
  | requested (host : List Char) (port : Nat)
  deriving DecidableEq, Repr

/--
`check_router_http` up to its request
-/
def checkRouterHttp (routerIp : Option String) : RouterCheck :=
  match routerIp with
  | none => .disabled
  | some routerIp =>
    if routerIp = "" then
      .disabled
    else
      match routerHostPort routerIp.toList with
      | none => .raised
      | some (host, port) => if isSsrfBlocked host then .blocked else .requested host port

def AcceptsOnlyUnblocked (address : String) : Prop :=
  ∀ stripped host port, isValidIpOrDomain address = some (.valid stripped host port .ip) →
    ∀ groups, ipGroups host = some groups → isBlocked (Ipv4.addressOf groups) = false

def RequestsOnlyUnblocked (routerIp : String) : Prop :=
  ∀ host port, checkRouterHttp (some routerIp) = .requested host port →
    Ipv4.IsQuad (host.splitOn '.') → isBlocked (Ipv4.addressOf (host.splitOn '.')) = false

/--
Digits from 0 to 9, no leading zeros and no line break at the end.
-/
def SpelledPlainly (host : List Char) : Prop := ∀ group ∈ host.splitOn '.', Ipv4.IsPlain group

instance (host : List Char) : Decidable (SpelledPlainly host) :=
  inferInstanceAs (Decidable (∀ group ∈ host.splitOn '.', _))

/--
If the host of the address is an address of a blocked network, then it is spelled plainly.
-/
def PlainIfBlocked (address : String) : Prop :=
  let address := PyText.strip address.toList
  ' ' ∉ address → ∀ host port, splitPort address = some (host, port) → PortInRange port →
    ∀ groups, ipGroups host = some groups → Ipv4.IsQuad groups →
      isBlocked (Ipv4.addressOf groups) = true → SpelledPlainly host

def PlainRouterIfBlocked (routerIp : String) : Prop :=
  ∀ host port, routerHostPort routerIp.toList = some (host, port) → Ipv4.IsQuad (host.splitOn '.') →
    isBlocked (Ipv4.addressOf (host.splitOn '.')) = true → SpelledPlainly host

theorem groups_of_ipGroups {host : List Char} {groups : List (List Char)} (h : ipGroups host = some groups)
    : groups = (beforeEnd host).splitOn '.' ∧ groups.length = 4 ∧
        ∀ group ∈ groups, group ≠ [] ∧ group.all PyText.isDecimal := by
  unfold ipGroups at h
  dsimp only at h
  split at h
  . next hgroups =>
    cases h
    exact ⟨rfl, hgroups.1, fun group hgroup => ⟨(hgroups.2 group hgroup).1, (hgroups.2 group hgroup).2.2⟩⟩
  . cases h

theorem isSsrfBlocked_of_quad {host : List Char} (hquad : Ipv4.IsQuad (host.splitOn '.'))
    : isSsrfBlocked host = true ↔
        SpelledPlainly host ∧ isBlocked (Ipv4.addressOf (host.splitOn '.')) = true := by
  unfold isSsrfBlocked
  cases hparse : Ipv4.parse host with
  | none =>
    refine iff_of_false Bool.false_ne_true ?_
    intro hboth
    rw [Ipv4.parse_of_plain hquad hboth.1] at hparse
    cases hparse
  | some ip =>
    have hplain := Ipv4.plain_of_parse hparse
    rw [Ipv4.parse_of_plain hquad hplain, Option.some_inj] at hparse
    rw [hparse]
    exact (and_iff_right hplain).symm

theorem requestsOnlyUnblocked_iff (routerIp : String)
    : RequestsOnlyUnblocked routerIp ↔ PlainRouterIfBlocked routerIp := by
  unfold RequestsOnlyUnblocked PlainRouterIfBlocked
  constructor
  . intro hrequests host port hsplit hquad hblocked
    by_contra hodd
    have hpasses : isSsrfBlocked host = false := by
      rw [← Bool.not_eq_true, isSsrfBlocked_of_quad hquad]
      exact fun hboth => hodd hboth.1
    have hne : routerIp ≠ "" := by
      rintro rfl
      cases hsplit
      exact absurd hquad.four (by decide)
    have hcheck : checkRouterHttp (some routerIp) = .requested host port := by
      unfold checkRouterHttp
      dsimp only
      rw [if_neg hne, hsplit]
      dsimp only
      rw [if_neg (by simp [hpasses])]
    rw [hrequests host port hcheck hquad] at hblocked
    cases hblocked
  . intro hplain host port hcheck hquad
    unfold checkRouterHttp at hcheck
    dsimp only at hcheck
    split at hcheck
    . cases hcheck
    . split at hcheck
      . cases hcheck
      . next host' port' hsplit =>
        split at hcheck
        . cases hcheck
        . next hpasses =>
          cases hcheck
          rw [← Bool.not_eq_true]
          intro hblocked
          apply hpasses
          rw [isSsrfBlocked_of_quad hquad]
          exact ⟨hplain host port hsplit hquad hblocked, hblocked⟩

theorem beforeEnd_of_plain {host : List Char} (hplain : SpelledPlainly host) : beforeEnd host = host := by
  unfold beforeEnd
  split
  . next hlast =>
    have hdigit := Ipv4.isDigit_of_plain hplain (List.mem_of_getLast? hlast) (by decide)
    exact absurd hdigit (by decide)
  . rfl

theorem checkDomain_ne_ip {address host stripped host' : List Char} {port port' : Option Nat}
    : checkDomain address host port ≠ .valid stripped host' port' .ip := by
  unfold checkDomain
  split
  . exact nofun
  . exact nofun

theorem ip_of_checkHost {address host stripped host' : List Char} {port port' : Option Nat}
    (h : checkHost address host port = .valid stripped host' port' .ip)
    : host' = host ∧ isSsrfBlocked host = false ∧
        ∀ groups, ipGroups host = some groups → ∀ group ∈ groups, PyText.value group ≤ 255 := by
  unfold checkHost at h
  split at h
  . next groups hgroups =>
    split at h
    . next hvalues =>
      have hall : ∀ groups', ipGroups host = some groups' → ∀ group ∈ groups', PyText.value group ≤ 255 := by
        intro groups' hgroups'
        rw [hgroups, Option.some_inj] at hgroups'
        exact hgroups' ▸ hvalues
      split at h
      . next ip hparse =>
        split at h
        . cases h
        . next hpasses =>
          cases h
          refine ⟨rfl, ?_, hall⟩
          unfold isSsrfBlocked
          rw [hparse]
          exact Bool.not_eq_true _ ▸ hpasses
      . next hparse =>
        cases h
        refine ⟨rfl, ?_, hall⟩
        unfold isSsrfBlocked
        rw [hparse]
    . exact absurd h checkDomain_ne_ip
  . exact absurd h checkDomain_ne_ip

theorem acceptsOnlyUnblocked_iff (address : String)
    : AcceptsOnlyUnblocked address ↔ PlainIfBlocked address := by
  unfold AcceptsOnlyUnblocked PlainIfBlocked isValidIpOrDomain
  dsimp only
  constructor
  . intro haccepts hspace host port hsplit hport groups hgroups hquad hblocked
    by_contra hodd
    have hparse : Ipv4.parse host = none := by
      rw [Option.eq_none_iff_forall_ne_some]
      exact fun ip hip => hodd (Ipv4.plain_of_parse hip)
    have hcheck := haccepts (PyText.strip address.toList) host port
    rw [if_neg hspace, hsplit, Option.map_some, if_pos hport] at hcheck
    unfold checkHost at hcheck
    rw [hgroups] at hcheck
    dsimp only at hcheck
    rw [if_pos hquad.values, hparse] at hcheck
    rw [hcheck rfl groups rfl] at hblocked
    cases hblocked
  . intro hplain stripped host port hcheck groups hgroups
    obtain ⟨hsplitOn, hfour, hdigits⟩ := groups_of_ipGroups hgroups
    split at hcheck
    . cases hcheck
    . next hspace =>
      obtain ⟨⟨host', port'⟩, hsplit, hcheck⟩ := Option.map_eq_some_iff.mp hcheck
      split at hcheck
      . next hport =>
        obtain ⟨rfl, hpasses, hvalues⟩ := ip_of_checkHost hcheck
        have hquad : Ipv4.IsQuad groups := ⟨hfour, hdigits, hvalues groups hgroups⟩
        rw [← Bool.not_eq_true] at hpasses ⊢
        intro hblocked
        have hspelled := hplain hspace _ _ hsplit hport groups hgroups hquad hblocked
        rw [hsplitOn, beforeEnd_of_plain hspelled] at hquad hblocked
        exact hpasses ((isSsrfBlocked_of_quad hquad).mpr ⟨hspelled, hblocked⟩)
      . cases hcheck

/--
The filter covers an address, as it is entered and as it is requested, if and only if the address is in no
blocked network or is spelled plainly.
-/
theorem ssrfFilter_iff (address routerIp : String)
    : (AcceptsOnlyUnblocked address ↔ PlainIfBlocked address) ∧
        (RequestsOnlyUnblocked routerIp ↔ PlainRouterIfBlocked routerIp) :=
  ⟨acceptsOnlyUnblocked_iff address, requestsOnlyUnblocked_iff routerIp⟩

theorem not_acceptsOnlyUnblocked {address : String} (host : List Char) (port : Option Nat)
    (groups : List (List Char))
    (hcheck : isValidIpOrDomain address =
      some (.valid (PyText.strip address.toList) host port .ip))
    (hgroups : ipGroups host = some groups) (hblocked : isBlocked (Ipv4.addressOf groups) = true)
    : ¬ AcceptsOnlyUnblocked address := by
  intro haccepts
  rw [haccepts _ host port hcheck groups hgroups] at hblocked
  cases hblocked

theorem not_ssrfFilter_oddSpellings
    : ¬ AcceptsOnlyUnblocked "127.0.0.01" ∧ ¬ AcceptsOnlyUnblocked "127.0.0.١" ∧
        ¬ AcceptsOnlyUnblocked "169.254.169.254\n:80" ∧ ¬ RequestsOnlyUnblocked "127.0.0.01:80" := by
  refine ⟨?_, ?_, ?_, ?_⟩
  . exact not_acceptsOnlyUnblocked "127.0.0.01".toList none [['1', '2', '7'], ['0'], ['0'], ['0', '1']]
      (by decide +kernel) (by decide +kernel) (by decide +kernel)
  . exact not_acceptsOnlyUnblocked "127.0.0.١".toList none [['1', '2', '7'], ['0'], ['0'], ['١']]
      (by decide +kernel) (by decide +kernel) (by decide +kernel)
  . exact not_acceptsOnlyUnblocked "169.254.169.254\n".toList (some 80)
      [['1', '6', '9'], ['2', '5', '4'], ['1', '6', '9'], ['2', '5', '4']] (by decide +kernel)
      (by decide +kernel) (by decide +kernel)
  . intro hrequests
    have hunblocked := hrequests "127.0.0.01".toList 80 (by decide +kernel) (by decide +kernel)
    revert hunblocked
    decide +kernel

end RouterAddress
