import Mathlib.Order.Bounds.Basic
import Mathlib.Order.WellFounded
import VpnPanel.Backend.NodeInterface

/-!
# Allocated addresses

`allocate_ip` returns the least free address of the subnet, whatever the subnet
is. The interface of the nodes and their NAT rule know one subnet only.
-/

namespace VpnPanel.Theorems

open VpnPanel.Lib VpnPanel.Backend

/-! ## Ascending lists -/

section Ascending

variable {l : List Nat} {p : Nat → Bool} {a : Nat}

/-- The first hit in an ascending list is the least one. -/
theorem find?_ascending (h : l.Pairwise (· < ·)) :
    l.find? p = some a ↔ IsLeast {x | x ∈ l ∧ p x = true} a := by
  induction l with
  | nil => exact ⟨(fun hnone => nomatch hnone), fun hleast => absurd hleast.1.1 List.not_mem_nil⟩
  | cons x rest ih =>
      obtain ⟨habove, hrest⟩ := List.pairwise_cons.mp h
      cases hx : p x with
      | true =>
          rw [List.find?_cons_of_pos hx]
          have hleast : IsLeast {y | y ∈ x :: rest ∧ p y = true} x := by
            refine ⟨⟨List.mem_cons_self, hx⟩, fun y hy => ?_⟩
            rcases List.mem_cons.mp hy.1 with rfl | hy
            · exact le_refl _
            · exact (habove y hy).le
          exact ⟨fun heq => Option.some.inj heq ▸ hleast, fun hother =>
            congrArg some (hleast.unique hother)⟩
      | false =>
          rw [List.find?_cons_of_neg (by simp [hx]), ih hrest]
          have hsame : {y | y ∈ x :: rest ∧ p y = true} = {y | y ∈ rest ∧ p y = true} := by
            ext y
            refine ⟨fun hy => ⟨?_, hy.2⟩, fun hy => ⟨List.mem_cons_of_mem _ hy.1, hy.2⟩⟩
            rcases List.mem_cons.mp hy.1 with rfl | hmem
            · exact absurd (hx.symm.trans hy.2) (by decide)
            · exact hmem
          rw [hsame]

/-- All but the first of an ascending list have a smaller one. -/
theorem mem_drop_one (h : l.Pairwise (· < ·)) :
    a ∈ l.drop 1 ↔ a ∈ l ∧ ∃ first ∈ l, first < a := by
  cases l with
  | nil => simp
  | cons x rest =>
      obtain ⟨habove, -⟩ := List.pairwise_cons.mp h
      refine ⟨fun ha => ⟨List.mem_cons_of_mem _ ha, x, List.mem_cons_self, habove a ha⟩, ?_⟩
      rintro ⟨ha, first, hfirst, hlt⟩
      rcases List.mem_cons.mp ha with rfl | ha
      · rcases List.mem_cons.mp hfirst with rfl | hfirst
        · exact absurd hlt (lt_irrefl _)
        · exact absurd (habove first hfirst) hlt.asymm
      · exact ha

end Ascending

/-! ## The hosts of a subnet -/

variable {subnet : Subnet} {usedIps : List String} {host : Nat}

/-- An address of the network that may be a host's: with room for more than two,
neither the first nor the last. -/
def Subnet.IsHost (subnet : Subnet) (host : Nat) : Prop :=
  subnet.covers host = true ∧
    (subnet.prefixlen ≤ 30 → host % subnet.size ≠ 0 ∧ host % subnet.size + 1 ≠ subnet.size)

theorem size_pos (subnet : Subnet) : 0 < subnet.size := Nat.two_pow_pos _

/-- The network address. -/
def networkBase (subnet : Subnet) : Nat := subnet.address / subnet.size * subnet.size

/-- The host's place in the network. -/
theorem covers_iff :
    subnet.covers host = true ↔ host = networkBase subnet + host % subnet.size := by
  unfold Subnet.covers networkBase
  rw [decide_eq_true_eq]
  constructor
  · intro h
    rw [← h, Nat.mul_comm]
    exact (Nat.div_add_mod host subnet.size).symm
  · intro h
    rw [h, Nat.mul_comm, Nat.mul_add_div (size_pos subnet), Nat.mod_div_self, Nat.add_zero]

/-- An address at a place of the network. -/
theorem networkBase_add_mod {place : Nat} (h : place < subnet.size) :
    (networkBase subnet + place) % subnet.size = place := by
  unfold networkBase
  rw [Nat.mul_add_mod_self_right, Nat.mod_eq_of_lt h]

theorem hosts_eq (subnet : Subnet) : subnet.hosts =
    if subnet.prefixlen = 32 then [networkBase subnet]
    else if subnet.prefixlen = 31 then [networkBase subnet, networkBase subnet + 1]
    else (List.range (subnet.size - 2)).map (networkBase subnet + 1 + ·) := rfl

theorem four_le_size (h : subnet.prefixlen ≤ 30) : 4 ≤ subnet.size :=
  Nat.pow_le_pow_right (n := 2) (by decide) (show 2 ≤ 32 - subnet.prefixlen by omega)

theorem hosts_ascending (subnet : Subnet) : subnet.hosts.Pairwise (· < ·) := by
  rw [hosts_eq]
  split
  · exact List.pairwise_singleton _ _
  · split
    · exact List.pairwise_cons.mpr ⟨fun y hy => by simp_all, List.pairwise_singleton _ _⟩
    · refine List.pairwise_map.mpr (List.pairwise_lt_range.imp fun {a b} hab => ?_)
      omega

theorem mem_hosts (hvalid : subnet.Valid) : host ∈ subnet.hosts ↔ Subnet.IsHost subnet host := by
  have hmod := Nat.mod_lt host (size_pos subnet)
  unfold Subnet.IsHost
  rw [covers_iff, hosts_eq]
  split
  · next h32 =>
      have hone : subnet.size = 1 := by simp [Subnet.size, h32]
      rw [List.mem_singleton]
      exact ⟨fun h => ⟨by omega, fun h30 => absurd h30 (by omega)⟩, fun h => by omega⟩
  · split
    · next h31 =>
        have htwo : subnet.size = 2 := by simp [Subnet.size, h31]
        have hfirst : networkBase subnet % 2 = 0 := htwo ▸ networkBase_add_mod (size_pos subnet)
        rw [htwo] at hmod ⊢
        rw [List.mem_pair]
        refine ⟨fun h => ⟨?_, fun h30 => absurd h30 (by omega)⟩, fun h => ?_⟩
        · rcases h with rfl | rfl <;> omega
        · omega
    · next h32 h31 =>
        have h30 : subnet.prefixlen ≤ 30 := by
          have := hvalid.prefixlen_le
          omega
        have hfour := four_le_size h30
        rw [List.mem_map]
        constructor
        · rintro ⟨i, hi, rfl⟩
          have hi := List.mem_range.mp hi
          have hplace : (networkBase subnet + (1 + i)) % subnet.size = 1 + i :=
            networkBase_add_mod (by omega)
          rw [Nat.add_assoc, hplace]
          exact ⟨rfl, fun _ => by omega⟩
        · rintro ⟨hplace, hinner⟩
          obtain ⟨hfirst, hlast⟩ := hinner h30
          exact ⟨host % subnet.size - 1, List.mem_range.mpr (by omega), by omega⟩

theorem host_lt (hvalid : subnet.Valid) (h : subnet.covers host = true) : host < 2 ^ 32 := by
  have hsplit : 2 ^ 32 = 2 ^ subnet.prefixlen * subnet.size := by
    unfold Subnet.size
    rw [← Nat.pow_add, Nat.add_sub_of_le hvalid.prefixlen_le]
  have hblock : subnet.address / subnet.size < 2 ^ subnet.prefixlen := by
    rw [Nat.div_lt_iff_lt_mul (size_pos subnet), ← hsplit]
    exact hvalid.address_lt
  unfold Subnet.covers at h
  rw [← of_decide_eq_true h, Nat.div_lt_iff_lt_mul (size_pos subnet), ← hsplit] at hblock
  exact hblock

/-! ## The least free address -/

/-- The addresses a new device may get. -/
def available (subnet : Subnet) (usedIps : List String) : Set Nat :=
  {host | Subnet.IsHost subnet host ∧ (∃ first, Subnet.IsHost subnet first ∧ first < host) ∧
    hostText host ∉ usedIps}

/-- The least free address is returned, and an error exactly where there is
none. -/
structure AllocatesLeast (subnet : Subnet) (usedIps : List String) : Prop where
  returns : ∀ ip, allocateIp subnet usedIps = some ip ↔
    ∃ host, IsLeast (available subnet usedIps) host ∧ ip = hostText host
  raises : allocateIp subnet usedIps = none ↔ available subnet usedIps = ∅

theorem available_eq (hvalid : subnet.Valid) : available subnet usedIps =
    {host | host ∈ subnet.hosts.drop 1 ∧ decide (hostText host ∉ usedIps) = true} := by
  ext host
  show _ ∧ _ ∧ _ ↔ _ ∧ _
  rw [mem_drop_one (hosts_ascending subnet), mem_hosts hvalid, decide_eq_true_eq, and_assoc]
  simp only [mem_hosts hvalid]

theorem allocateIp_eq : allocateIp subnet usedIps =
    ((subnet.hosts.drop 1).find? fun host => decide (hostText host ∉ usedIps)).map hostText := by
  unfold allocateIp
  rw [List.find?_map]
  rfl

theorem exists_least {s : Set Nat} (h : s.Nonempty) : ∃ least, IsLeast s least :=
  ⟨WellFounded.min Nat.lt_wfRel.wf s h, WellFounded.min_mem _ s h,
    fun _ hx => not_lt.mp (WellFounded.not_lt_min _ s hx)⟩

theorem allocatesLeast (hvalid : subnet.Valid) (usedIps : List String) :
    AllocatesLeast subnet usedIps := by
  have hfound : ∀ host, (subnet.hosts.drop 1).find? (fun host => decide (hostText host ∉ usedIps)) =
      some host ↔ IsLeast (available subnet usedIps) host := by
    intro host
    rw [available_eq hvalid]
    exact find?_ascending ((hosts_ascending subnet).sublist (List.drop_sublist _ _))
  have hreturns : ∀ ip, allocateIp subnet usedIps = some ip ↔
      ∃ host, IsLeast (available subnet usedIps) host ∧ ip = hostText host := by
    intro ip
    rw [allocateIp_eq, Option.map_eq_some_iff]
    constructor
    · rintro ⟨host, hhost, rfl⟩
      exact ⟨host, (hfound host).mp hhost, rfl⟩
    · rintro ⟨host, hleast, rfl⟩
      exact ⟨host, (hfound host).mpr hleast, rfl⟩
  refine ⟨hreturns, ⟨fun hnone => ?_, fun hempty => ?_⟩⟩
  · by_contra hsome
    obtain ⟨least, hleast⟩ := exists_least (Set.nonempty_iff_ne_empty.mpr hsome)
    rw [(hreturns _).mpr ⟨least, hleast, rfl⟩] at hnone
    cases hnone
  · cases halloc : allocateIp subnet usedIps with
    | none => rfl
    | some ip =>
        obtain ⟨host, hleast, -⟩ := (hreturns ip).mp halloc
        exact absurd hleast.1 (hempty ▸ Set.notMem_empty host)

/-! ## The network of the nodes -/

/-- Inside the interface network and the NAT source range. -/
def Routed (pushed : NodeInterface) (host : Nat) : Prop :=
  (∃ network, pushed.network = some network ∧ network.covers host = true) ∧
    ∃ source, pushed.natSource = some source ∧ source.covers host = true

theorem routed_iff (privateKey : Option String) (node : Node) :
    Routed (nodeInterface privateKey node) host ↔ host / 256 = 0x0a0800 := by
  have hcovers : ∀ address : Nat, address / 256 = 0x0a0800 →
      (Subnet.covers ⟨address, 24⟩ host = true ↔ host / 256 = 0x0a0800) := by
    intro address haddress
    show decide (host / 256 = address / 256) = true ↔ _
    rw [decide_eq_true_eq, haddress]
  unfold Routed
  rw [nodeInterface_network, nodeInterface_natSource]
  constructor
  · rintro ⟨⟨network, hnetwork, hcover⟩, -⟩
    cases hnetwork
    exact (hcovers _ (by decide)).mp hcover
  · intro hhost
    exact ⟨⟨_, rfl, (hcovers _ (by decide)).mpr hhost⟩, _, rfl, (hcovers _ (by decide)).mpr hhost⟩

/-- Every address that is returned is inside. -/
def AllocatesRouted (subnet : Subnet) (usedIps : List String) (pushed : NodeInterface) : Prop :=
  ∀ ip, allocateIp subnet usedIps = some ip →
    ∃ host, readAddress ip.toList = some host ∧ Routed pushed host

/-- A free address outside `10.8.0.0/24` has a free one inside below it. -/
def InsideFirst (subnet : Subnet) (usedIps : List String) : Prop :=
  ∀ host ∈ available subnet usedIps, host / 256 ≠ 0x0a0800 →
    ∃ other ∈ available subnet usedIps, other < host ∧ other / 256 = 0x0a0800

theorem allocatesRouted_iff (hvalid : subnet.Valid) (usedIps : List String)
    (privateKey : Option String) (node : Node) :
    AllocatesRouted subnet usedIps (nodeInterface privateKey node) ↔
      InsideFirst subnet usedIps := by
  have hreturns := (allocatesLeast hvalid usedIps).returns
  constructor
  · intro hrouted host hhost houtside
    obtain ⟨least, hleast⟩ := exists_least ⟨host, hhost⟩
    obtain ⟨read, hread, hinside⟩ := hrouted _ ((hreturns _).mpr ⟨least, hleast, rfl⟩)
    rw [readAddress_hostText (host_lt hvalid hleast.1.1.1)] at hread
    cases hread
    have hinside := (routed_iff privateKey node).mp hinside
    refine ⟨least, hleast.1, lt_of_le_of_ne (hleast.2 hhost) ?_, hinside⟩
    rintro rfl
    exact houtside hinside
  · intro hfirst ip hip
    obtain ⟨least, hleast, rfl⟩ := (hreturns ip).mp hip
    refine ⟨least, readAddress_hostText (host_lt hvalid hleast.1.1.1),
      (routed_iff privateKey node).mpr ?_⟩
    by_contra houtside
    obtain ⟨other, hother, hlt, -⟩ := hfirst least hleast.1 houtside
    exact absurd (hleast.2 hother) (not_le.mpr hlt)

/-! ## Whatever is reserved -/

/-- The subnet lies in `10.8.0.0/24`, or has no second host. -/
def Within (subnet : Subnet) : Prop :=
  subnet.prefixlen = 32 ∨ 24 ≤ subnet.prefixlen ∧ subnet.address / 256 = 0x0a0800

/-- With the others reserved, an address is the only free one. -/
theorem insideFirst_only (hvalid : subnet.Valid) {first : Nat}
    (hhost : Subnet.IsHost subnet host) (hfirst : Subnet.IsHost subnet first) (hlt : first < host)
    (h : ∀ usedIps, InsideFirst subnet usedIps) : host / 256 = 0x0a0800 := by
  by_contra houtside
  have hfree : host ∈ available subnet
      ((subnet.hosts.map hostText).filter (· ≠ hostText host)) :=
    ⟨hhost, ⟨first, hfirst, hlt⟩, by simp⟩
  obtain ⟨other, hother, hbelow, -⟩ := h _ host hfree houtside
  have hsame : hostText other = hostText host := by
    by_contra hne
    refine hother.2.2 (List.mem_filter.mpr ⟨List.mem_map.mpr ⟨other, ?_, rfl⟩, by simpa using hne⟩)
    exact (mem_hosts hvalid).mpr hother.1
  have heq := hostText_inj (host_lt hvalid hother.1.1) (host_lt hvalid hhost.1) hsame
  omega

theorem isHost_place {place : Nat} (hplace : place < subnet.size)
    (hinner : subnet.prefixlen ≤ 30 → place ≠ 0 ∧ place + 1 ≠ subnet.size) :
    Subnet.IsHost subnet (networkBase subnet + place) := by
  unfold Subnet.IsHost
  rw [covers_iff, networkBase_add_mod hplace]
  exact ⟨rfl, hinner⟩

theorem size_dvd (h : 24 ≤ subnet.prefixlen) : subnet.size ∣ 256 :=
  Nat.pow_dvd_pow 2 (show 32 - subnet.prefixlen ≤ 8 by omega)

/-- A network of at most 256 addresses lies in one block. -/
theorem block_of_covers (h : 24 ≤ subnet.prefixlen) (hcover : subnet.covers host = true) :
    host / 256 = subnet.address / 256 := by
  obtain ⟨k, hk⟩ := size_dvd h
  unfold Subnet.covers at hcover
  rw [hk, ← Nat.div_div_eq_div_mul, ← Nat.div_div_eq_div_mul, of_decide_eq_true hcover]

theorem within_of_insideFirst (hvalid : subnet.Valid)
    (h : ∀ usedIps, InsideFirst subnet usedIps) : Within subnet := by
  have hle := hvalid.prefixlen_le
  by_cases h32 : subnet.prefixlen = 32
  · exact .inl h32
  by_cases h31 : subnet.prefixlen = 31
  · have htwo : subnet.size = 2 := by simp [Subnet.size, h31]
    have hlow : Subnet.IsHost subnet (networkBase subnet + 0) := isHost_place (by omega) (by omega)
    have hhigh : Subnet.IsHost subnet (networkBase subnet + 1) := isHost_place (by omega) (by omega)
    have hinside := insideFirst_only hvalid hhigh hlow (by omega) h
    exact .inr ⟨by omega, (block_of_covers (by omega) hhigh.1).symm.trans hinside⟩
  have hfour : 4 ≤ subnet.size := four_le_size (by omega)
  have hlow : Subnet.IsHost subnet (networkBase subnet + 1) := isHost_place (by omega) (by omega)
  have hhigh : Subnet.IsHost subnet (networkBase subnet + 2) := isHost_place (by omega) (by omega)
  have hinside := insideFirst_only hvalid hhigh hlow (by omega) h
  by_cases h24 : 24 ≤ subnet.prefixlen
  · exact .inr ⟨h24, (block_of_covers h24 hhigh.1).symm.trans hinside⟩
  · -- a wider network has a host in the next block, too
    have hwide : 2 ^ 9 ≤ subnet.size := Nat.pow_le_pow_right (by decide) (by omega)
    have hnext : Subnet.IsHost subnet (networkBase subnet + 258) :=
      isHost_place (by omega) (by omega)
    have hboth := insideFirst_only hvalid hnext hlow (by omega) h
    omega

theorem insideFirst_of_within (hwithin : Within subnet) (usedIps : List String) :
    InsideFirst subnet usedIps := by
  rintro host ⟨⟨hcover, -⟩, ⟨first, hfirst, hlt⟩, -⟩ houtside
  rcases hwithin with h32 | ⟨h24, haddress⟩
  · -- a single host is the first one
    have hone : subnet.size = 1 := by simp [Subnet.size, h32]
    have hhost := covers_iff.mp hcover
    have hother := covers_iff.mp hfirst.1
    rw [hone, Nat.mod_one] at hhost hother
    omega
  · exact absurd ((block_of_covers h24 hcover).trans haddress) houtside

/-! ## The pool and the nodes -/

/-- **Allocated addresses.** They are always the least free ones. They are
inside where a free address below the others is inside, and inside whatever is
reserved in the subnets of `10.8.0.0/24` and those without a second host. -/
theorem allocated_addresses_iff (subnet : Subnet) (privateKey : Option String) (node : Node)
    (hvalid : subnet.Valid) :
    (∀ usedIps, AllocatesLeast subnet usedIps) ∧
    (∀ usedIps, AllocatesLeast subnet usedIps ∧
      AllocatesRouted subnet usedIps (nodeInterface privateKey node) ↔
        InsideFirst subnet usedIps) ∧
    ((∀ usedIps, AllocatesLeast subnet usedIps ∧
      AllocatesRouted subnet usedIps (nodeInterface privateKey node)) ↔ Within subnet) := by
  have hleast := allocatesLeast hvalid
  have hpair : ∀ usedIps, AllocatesLeast subnet usedIps ∧
      AllocatesRouted subnet usedIps (nodeInterface privateKey node) ↔
        InsideFirst subnet usedIps := by
    intro usedIps
    rw [allocatesRouted_iff hvalid usedIps]
    exact ⟨And.right, fun h => ⟨hleast usedIps, h⟩⟩
  refine ⟨hleast, hpair, fun h => ?_, fun h usedIps => ?_⟩
  · exact within_of_insideFirst hvalid fun usedIps => (hpair usedIps).mp (h usedIps)
  · exact (hpair usedIps).mpr (insideFirst_of_within h usedIps)

/-- A node with nothing reported. -/
def bareNode : Node :=
  { id := 0, name := "a", url := "http://a", token := "t" }

theorem allocated_addresses_wide : ¬∀ usedIps, AllocatesLeast ⟨0x0a080000, 16⟩ usedIps ∧
    AllocatesRouted ⟨0x0a080000, 16⟩ usedIps (nodeInterface none bareNode) := by
  have hiff := (allocated_addresses_iff ⟨0x0a080000, 16⟩ none bareNode
    ⟨by decide, by decide⟩).2.2
  rw [hiff]
  unfold Within
  decide

/-- The first client of another network gets an address outside. -/
theorem allocated_outside : allocateIp ⟨0x0a090000, 24⟩ [] = some "10.9.0.2" ∧
    ¬AllocatesRouted ⟨0x0a090000, 24⟩ [] (nodeInterface none bareNode) := by
  have hip : allocateIp ⟨0x0a090000, 24⟩ [] = some "10.9.0.2" := by decide +kernel
  refine ⟨hip, fun hrouted => ?_⟩
  obtain ⟨host, hread, hinside⟩ := hrouted _ hip
  have hhost : readAddress "10.9.0.2".toList = some 0x0a090002 := by decide +kernel
  rw [hhost] at hread
  cases hread
  exact absurd ((routed_iff none bareNode).mp hinside) (by decide)

end VpnPanel.Theorems
