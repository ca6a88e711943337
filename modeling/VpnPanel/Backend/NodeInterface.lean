import VpnPanel.Backend.ClientConfig
import VpnPanel.Lib.Text

/-!
# The interface of the nodes

`node_interface` of `services/node_config.py`, and the networks that its texts
name: the one the agent gives the interface and the one the NAT rule is for.
-/

namespace VpnPanel.Backend

open VpnPanel.Lib

/-! ## What is pushed -/

def nodeVpnAddress : String := "10.8.0.1/24"

def postUpCommand : String :=
  "iptables -t nat -A POSTROUTING -s 10.8.0.0/24 -j MASQUERADE; " ++
    "iptables -A FORWARD -i %i -j ACCEPT; iptables -A FORWARD -o %i -j ACCEPT"

def postDownCommand : String :=
  "iptables -t nat -D POSTROUTING -s 10.8.0.0/24 -j MASQUERADE; " ++
    "iptables -D FORWARD -i %i -j ACCEPT; iptables -D FORWARD -o %i -j ACCEPT"

structure NodeInterface where
  privateKey : Option String
  address : String
  listenPort : Int
  jc : Int
  jmin : Int
  jmax : Int
  s1 : Int
  s2 : Int
  s3 : Int
  s4 : Int
  h1 : String
  h2 : String
  h3 : String
  h4 : String
  i1 : String
  i2 : String
  i3 : String
  i4 : String
  i5 : String
  mtu : String
  postUp : String
  postDown : String
  deriving DecidableEq, Repr

/-- `node_interface`, for a node with the private key. -/
def nodeInterface (privateKey : Option String) (node : Node) : NodeInterface where
  privateKey := privateKey
  address := nodeVpnAddress
  listenPort := node.int .listenPort 51820
  jc := node.int .jc 4
  jmin := node.int .jmin 40
  jmax := node.int .jmax 70
  s1 := node.int .s1 0
  s2 := node.int .s2 0
  s3 := node.int .s3 0
  s4 := node.int .s4 0
  h1 := node.text .h1 "1"
  h2 := node.text .h2 "2"
  h3 := node.text .h3 "3"
  h4 := node.text .h4 "4"
  i1 := node.text .i1 ""
  i2 := node.text .i2 ""
  i3 := node.text .i3 ""
  i4 := node.text .i4 ""
  i5 := node.text .i5 ""
  mtu := nodeMtu node
  postUp := postUpCommand
  postDown := postDownCommand

/-! ## Networks and their texts -/

namespace Subnet

def size (subnet : Subnet) : Nat := 2 ^ (32 - subnet.prefixlen)

/-- The address belongs to the network. -/
def covers (subnet : Subnet) (host : Nat) : Bool :=
  host / subnet.size = subnet.address / subnet.size

/-- An IPv4 network. -/
structure Valid (subnet : Subnet) : Prop where
  address_lt : subnet.address < 2 ^ 32
  prefixlen_le : subnet.prefixlen ≤ 32

end Subnet

def readNumber (t : Text) : Option Nat :=
  if t ≠ [] && t.all Char.isDigit then some (Nat.ofDigitChars 10 t 0) else none

/-- The address of a dotted text. -/
def readAddress (t : Text) : Option Nat :=
  match (t.splitOn '.').mapM readNumber with
  | some [a, b, c, d] =>
      if a < 256 && b < 256 && c < 256 && d < 256 then
        some (a * 16777216 + b * 65536 + c * 256 + d)
      else none
  | _ => none

/-- The network of a text `address/prefixlen`. -/
def readSubnet (t : Text) : Option Subnet :=
  match t.splitOn '/' with
  | [address, prefixlen] => (readAddress address).bind fun address =>
      (readNumber prefixlen).bind fun prefixlen =>
        if prefixlen ≤ 32 then some ⟨address, prefixlen⟩ else none
  | _ => none

/-- The word behind an option. -/
def optionValue (option : Text) : List Text → Option Text
  | word :: value :: rest =>
      if word = option then some value else optionValue option (value :: rest)
  | _ => none

namespace NodeInterface

/-- The network the interface is given. -/
def network (pushed : NodeInterface) : Option Subnet := readSubnet pushed.address.toList

/-- The source range of the masquerading rule. -/
def natSource (pushed : NodeInterface) : Option Subnet :=
  (optionValue "-s".toList (pushed.postUp.toList.splitOn ' ')).bind readSubnet

end NodeInterface

theorem nodeInterface_network (privateKey : Option String) (node : Node) :
    (nodeInterface privateKey node).network = some ⟨0x0a080001, 24⟩ := by
  show readSubnet nodeVpnAddress.toList = _
  decide +kernel

theorem nodeInterface_natSource (privateKey : Option String) (node : Node) :
    (nodeInterface privateKey node).natSource = some ⟨0x0a080000, 24⟩ := by
  show (optionValue _ (postUpCommand.toList.splitOn ' ')).bind readSubnet = _
  decide +kernel

/-! ## Dotted texts -/

theorem readNumber_toDigits (n : Nat) : readNumber (Nat.toDigits 10 n) = some n := by
  have hne : Nat.toDigits 10 n ≠ [] := Nat.toDigits_ne_nil
  have hall : (Nat.toDigits 10 n).all Char.isDigit = true :=
    List.all_eq_true.mpr fun c hc => Nat.isDigit_of_mem_toDigits (by decide) (by decide) hc
  unfold readNumber
  rw [hall, Nat.ofDigitChars_ten_toDigits]
  simp [hne]

theorem dot_notMem_toDigits (n : Nat) : '.' ∉ Nat.toDigits 10 n := by
  intro h
  have hdigit : Char.isDigit '.' = true := Nat.isDigit_of_mem_toDigits (by decide) (by decide) h
  exact absurd hdigit (by decide)

/-- Four numbers with dots between them. -/
theorem hostText_toList (host : Nat) : (hostText host).toList =
    Nat.toDigits 10 (host / 16777216 % 256) ++ '.' ::
      (Nat.toDigits 10 (host / 65536 % 256) ++ '.' ::
        (Nat.toDigits 10 (host / 256 % 256) ++ '.' :: Nat.toDigits 10 (host % 256))) := by
  unfold hostText
  simp [String.toList_append, ToString.toString, Nat.repr]

/-- An address is read back from its dotted text. -/
theorem readAddress_hostText {host : Nat} (h : host < 2 ^ 32) :
    readAddress (hostText host).toList = some host := by
  have hsplit : (hostText host).toList.splitOn '.' =
      [Nat.toDigits 10 (host / 16777216 % 256), Nat.toDigits 10 (host / 65536 % 256),
        Nat.toDigits 10 (host / 256 % 256), Nat.toDigits 10 (host % 256)] := by
    rw [hostText_toList, List.splitOn_append_cons_self_of_not_mem (dot_notMem_toDigits _),
      List.splitOn_append_cons_self_of_not_mem (dot_notMem_toDigits _),
      List.splitOn_append_cons_self_of_not_mem (dot_notMem_toDigits _),
      List.splitOn_eq_singleton (dot_notMem_toDigits _)]
  have hvalue : host / 16777216 % 256 * 16777216 + host / 65536 % 256 * 65536 +
      host / 256 % 256 * 256 + host % 256 = host := by
    omega
  unfold readAddress
  rw [hsplit]
  simp only [List.mapM_cons, List.mapM_nil, readNumber_toDigits, Option.bind_eq_bind,
    Option.bind_some, Option.pure_def]
  rw [if_pos (by simp [Nat.mod_lt]), hvalue]

theorem mem_hostText {host : Nat} {c : Char} (h : c ∈ (hostText host).toList) :
    c.isDigit = true ∨ c = '.' := by
  have hdigits : ∀ n, c ∈ Nat.toDigits 10 n → c.isDigit = true :=
    fun n hc => Nat.isDigit_of_mem_toDigits (by decide) (by decide) hc
  rw [hostText_toList] at h
  simp only [List.mem_append, List.mem_cons] at h
  rcases h with h | rfl | h | rfl | h | rfl | h
  · exact .inl (hdigits _ h)
  · exact .inr rfl
  · exact .inl (hdigits _ h)
  · exact .inr rfl
  · exact .inl (hdigits _ h)
  · exact .inr rfl
  · exact .inl (hdigits _ h)

theorem hostText_inj {host other : Nat} (h : host < 2 ^ 32) (h' : other < 2 ^ 32)
    (heq : hostText host = hostText other) : host = other := by
  have hread := readAddress_hostText h
  rw [heq, readAddress_hostText h'] at hread
  exact (Option.some.inj hread).symm

end VpnPanel.Backend
