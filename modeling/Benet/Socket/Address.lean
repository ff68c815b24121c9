import Benet.Data.Object
import Benet.Data.Bytes

/-!
# Socket addresses

`InetAddress` keeps a `sockaddr_storage`, and the two address structures are laid over
its bytes. The kernel copies as many bytes as the length beside the pointer says: from
its own structure in `accept4` and `getsockname`, to it in `bind` and `connect`. The
wrappers of `socket_ops.cpp` pass the size of a pointer, of a `sockaddr` and of the
storage; `addresses_intact_iff` says which addresses survive.
-/

namespace Benet

open Data

/-- `sa_family_t` -/
abbrev SaFamily := BitVec (8 * 2)

/-- `in_port_t` -/
abbrev Port := BitVec (8 * 2)

def afInet : SaFamily := 2

def afInet6 : SaFamily := 10

abbrev sizeofSockaddr : Nat := 16

abbrev sizeofSockaddrIn : Nat := 16

abbrev sizeofSockaddrIn6 : Nat := 28

abbrev sizeofSockaddrStorage : Nat := 128

/-- On a machine with 64-bit addresses. -/
abbrev sizeofPointer : Nat := 8

abbrev SockaddrStorage := Block sizeofSockaddrStorage

namespace SockaddrIn

def sinFamily : Member sizeofSockaddrStorage 2 := { offset := 0 }

def sinPort : Member sizeofSockaddrStorage 2 := { offset := 2 }

def sinAddr : Member sizeofSockaddrStorage 4 := { offset := 4 }

end SockaddrIn

namespace SockaddrIn6

def sin6Family : Member sizeofSockaddrStorage 2 := { offset := 0 }

def sin6Port : Member sizeofSockaddrStorage 2 := { offset := 2 }

def sin6Flowinfo : Member sizeofSockaddrStorage 4 := { offset := 4 }

def sin6Addr : Member sizeofSockaddrStorage 16 := { offset := 8 }

def sin6ScopeId : Member sizeofSockaddrStorage 4 := { offset := 24 }

end SockaddrIn6

/-- The address of a socket as the kernel knows it. -/
inductive Endpoint where
  | ipv4 (address : Block 4) (port : Port)
  | ipv6 (address : Block 16) (port : Port) (flowinfo scopeId : Block 4)
deriving DecidableEq

namespace Endpoint

def family : Endpoint → SaFamily
  | .ipv4 .. => afInet
  | .ipv6 .. => afInet6

def address : Endpoint → List UInt8
  | .ipv4 address _ => address.1
  | .ipv6 address .. => address.1

def port : Endpoint → Port
  | .ipv4 _ port => port
  | .ipv6 _ port .. => port

/-- The kernel's structure: the family in host order, the port in network order. -/
def sockaddr (order : ByteOrder) : Endpoint → List UInt8
  | .ipv4 address port =>
      order.store afInet ++ ByteOrder.big.store port ++ address.1 ++ List.replicate 8 0
  | .ipv6 address port flowinfo scopeId =>
      order.store afInet6 ++ ByteOrder.big.store port ++ flowinfo.1 ++ address.1 ++ scopeId.1

private theorem length_sockaddr_le (order : ByteOrder) (endpoint : Endpoint) :
    (endpoint.sockaddr order).length ≤ sizeofSockaddrIn6 := by
  cases endpoint with
  | ipv4 address port => simp [sockaddr, address.2, sizeofSockaddrIn6]
  | ipv6 address port flowinfo scopeId =>
      simp [sockaddr, address.2, flowinfo.2, scopeId.2, sizeofSockaddrIn6]

end Endpoint

/-- The kernel gives out an address: the first `addrlen` bytes of its structure. -/
def kernelStores (order : ByteOrder) (endpoint : Endpoint) (addrlen : Nat)
    (storage : SockaddrStorage) : SockaddrStorage :=
  storage.fill ((endpoint.sockaddr order).take addrlen) <| by
    have bound := endpoint.length_sockaddr_le order
    rw [List.length_take]
    exact Nat.le_trans (Nat.min_le_right _ _) (Nat.le_trans bound (by decide))

/-- The kernel takes an address of `addrlen` bytes, unless these are too few for the
structure of its family. -/
def kernelReads (order : ByteOrder) (storage : SockaddrStorage) (addrlen : Nat) :
    Option Endpoint :=
  let family := order.load 2 (SockaddrIn.sinFamily.get storage).1
  if family = afInet ∧ sizeofSockaddrIn ≤ addrlen then
    some (.ipv4 (SockaddrIn.sinAddr.get storage)
      (ByteOrder.big.load 2 (SockaddrIn.sinPort.get storage).1))
  else if family = afInet6 ∧ sizeofSockaddrIn6 ≤ addrlen then
    some (.ipv6 (SockaddrIn6.sin6Addr.get storage)
      (ByteOrder.big.load 2 (SockaddrIn6.sin6Port.get storage).1)
      (SockaddrIn6.sin6Flowinfo.get storage) (SockaddrIn6.sin6ScopeId.get storage))
  else none

/-- `inet_pton` in its two families; `none` when it does not return `1`. -/
structure InetPton where
  ipv4 : String → Option (Block 4)
  ipv6 : String → Option (Block 16)

structure InetAddress where
  addr : SockaddrStorage
deriving DecidableEq

namespace InetAddress

section Constructor

variable (order : ByteOrder) (inetPton : InetPton) (port : Port) (ip : String)

/-- An integer of two bytes as the program stores it. -/
def storeInt (value : BitVec (8 * 2)) : Block 2 := ⟨order.store value, order.length_store value⟩

/-- The second half of the constructor; an invalid address ends the program. -/
def createIpv4 (addr : SockaddrStorage) : Option InetAddress :=
  let addr := SockaddrIn.sinFamily.set (storeInt order afInet) addr
  let addr := SockaddrIn.sinPort.set (storeInt order (order.htobe port)) addr
  (inetPton.ipv4 ip).map fun address => ⟨SockaddrIn.sinAddr.set address addr⟩

def create (ipv6 : Bool) : Option InetAddress :=
  let addr := Block.zero sizeofSockaddrStorage
  if ipv6 then
    let addr := SockaddrIn6.sin6Family.set (storeInt order afInet6) addr
    let addr := SockaddrIn6.sin6Port.set (storeInt order (order.htobe port)) addr
    match inetPton.ipv6 ip with
    | some address => some ⟨SockaddrIn6.sin6Addr.set address addr⟩
    | none => createIpv4 order inetPton port ip addr
  else createIpv4 order inetPton port ip addr

/-- What the arguments of the constructor mean: an IPv6 address where one is asked for
and the text is one, otherwise an IPv4 address. -/
def literal (ipv6 : Bool) : Option Endpoint :=
  match if ipv6 then inetPton.ipv6 ip else none with
  | some address => some (.ipv6 address port (.zero 4) (.zero 4))
  | none => (inetPton.ipv4 ip).map (.ipv4 · port)

end Constructor

section Accessors

variable (order : ByteOrder) (inetAddress : InetAddress)

/-- `ss_family`, which lies where both structures have their family. -/
def family : SaFamily :=
  order.load 2 (SockaddrIn.sinFamily.get inetAddress.addr).1

def port : Port :=
  if inetAddress.family order = afInet then
    order.betoh (order.load 2 (SockaddrIn.sinPort.get inetAddress.addr).1)
  else if inetAddress.family order = afInet6 then
    order.betoh (order.load 2 (SockaddrIn6.sin6Port.get inetAddress.addr).1)
  else 0

/-- The bytes that `ip` hands to `inet_ntop`. -/
def ipBytes : List UInt8 :=
  if inetAddress.family order = afInet then (SockaddrIn.sinAddr.get inetAddress.addr).1
  else if inetAddress.family order = afInet6 then (SockaddrIn6.sin6Addr.get inetAddress.addr).1
  else []

end Accessors

end InetAddress

namespace Sockets

variable (order : ByteOrder)

/-- `bind_or_die`: what the kernel is given; `none` is `EINVAL`, which ends the program. -/
def bindOrDie (inetAddress : InetAddress) : Option Endpoint :=
  kernelReads order inetAddress.addr sizeofSockaddr

def connect (inetAddress : InetAddress) : Option Endpoint :=
  kernelReads order inetAddress.addr sizeofSockaddr

/-- `accept`; the length is the size of the parameter `addr`, which is a pointer. -/
def accept (answer : Option Endpoint) (addr : SockaddrStorage) : SockaddrStorage :=
  match answer with
  | none => addr
  | some peer => kernelStores order peer sizeofPointer addr

/-- `get_local_addr` and `get_peer_addr`; the length is that of the whole storage. -/
def getAddr (answer : Option Endpoint) : SockaddrStorage :=
  match answer with
  | none => .zero _
  | some endpoint => kernelStores order endpoint sizeofSockaddrStorage (.zero _)

end Sockets

/-- `Socket::Accept`; without a connection the address of the caller stays as it is. -/
def Socket.accept (order : ByteOrder) (answer : Option Endpoint) (peerAddr : InetAddress) :
    InetAddress :=
  let addr := Sockets.accept order answer (.zero _)
  if answer.isSome then ⟨addr⟩ else peerAddr

/-- Family, address bytes and port of an address are those of an end point. -/
def InetAddress.Presents (order : ByteOrder) (inetAddress : InetAddress) (endpoint : Endpoint) :
    Prop :=
  inetAddress.family order = endpoint.family ∧ inetAddress.ipBytes order = endpoint.address ∧
    inetAddress.port order = endpoint.port

section Fields

variable {order : ByteOrder} {storage : SockaddrStorage} {address : Block 4} {port : Port}

private theorem load_storeInt (order : ByteOrder) (value : BitVec (8 * 2)) :
    order.load 2 (InetAddress.storeInt order value).1 = value :=
  order.load_store value

private theorem afInet6_ne_afInet : afInet6 ≠ afInet := by decide

/-- The port as the kernel and the constructor store it. -/
def networkPort (port : Port) : Block 2 :=
  ⟨ByteOrder.big.store port, ByteOrder.big.length_store port⟩

private theorem storeInt_htobe (order : ByteOrder) (port : Port) :
    InetAddress.storeInt order (order.htobe port) = networkPort port :=
  Subtype.ext (order.store_htobe port)

private theorem betoh_networkPort (order : ByteOrder) (port : Port) :
    order.betoh (order.load 2 (networkPort port).1) = port := by
  rw [order.betoh_load (networkPort port).2]
  exact ByteOrder.big.load_store port

/-- A storage that holds a `sockaddr_in`. -/
structure HoldsIpv4 (order : ByteOrder) (storage : SockaddrStorage) (address : Block 4)
    (port : Port) : Prop where
  family : SockaddrIn.sinFamily.get storage = InetAddress.storeInt order afInet
  port : SockaddrIn.sinPort.get storage = networkPort port
  address : SockaddrIn.sinAddr.get storage = address

/-- A storage that holds a `sockaddr_in6`. -/
structure HoldsIpv6 (order : ByteOrder) (storage : SockaddrStorage) (address : Block 16)
    (port : Port) : Prop where
  family : SockaddrIn6.sin6Family.get storage = InetAddress.storeInt order afInet6
  port : SockaddrIn6.sin6Port.get storage = networkPort port
  address : SockaddrIn6.sin6Addr.get storage = address

/-- The storage of an IPv4 address has its family. -/
theorem HoldsIpv4.family_eq (holds : HoldsIpv4 order storage address port) :
    (InetAddress.mk storage).family order = afInet := by
  rw [InetAddress.family, holds.family, load_storeInt]

/-- The storage of an IPv6 address has its family. -/
theorem HoldsIpv6.family_eq {address : Block 16} (holds : HoldsIpv6 order storage address port) :
    (InetAddress.mk storage).family order = afInet6 := by
  have family : SockaddrIn.sinFamily.get storage = _ := holds.family
  rw [InetAddress.family, family, load_storeInt]

/-- The accessors present an IPv4 address as it is. -/
theorem HoldsIpv4.presents (holds : HoldsIpv4 order storage address port) :
    (InetAddress.mk storage).Presents order (.ipv4 address port) := by
  refine ⟨holds.family_eq, ?_, ?_⟩
  · rw [InetAddress.ipBytes, if_pos holds.family_eq, holds.address]
    rfl
  · rw [InetAddress.port, if_pos holds.family_eq, holds.port, betoh_networkPort]
    rfl

/-- The accessors of a `sockaddr_in6` find any end point with its address and port. -/
theorem HoldsIpv6.presents_iff {address : Block 16} (holds : HoldsIpv6 order storage address port)
    (actual : Block 16) (flowinfo scopeId : Block 4) :
    (InetAddress.mk storage).Presents order (.ipv6 actual port flowinfo scopeId) ↔
      address = actual := by
  have isIpv6 := holds.family_eq
  have notIpv4 : ¬(InetAddress.mk storage).family order = afInet := isIpv6 ▸ afInet6_ne_afInet
  have bytes : (InetAddress.mk storage).ipBytes order = address.1 := by
    rw [InetAddress.ipBytes, if_neg notIpv4, if_pos isIpv6, holds.address]
  have portEq : (InetAddress.mk storage).port order = port := by
    rw [InetAddress.port, if_neg notIpv4, if_pos isIpv6, holds.port, betoh_networkPort]
  rw [InetAddress.Presents, bytes]
  exact ⟨fun presents => Subtype.ext presents.2.1, fun same => ⟨isIpv6, by rw [same]; rfl, portEq⟩⟩

end Fields

section Stored

variable (order : ByteOrder) (port : Port) (storage : SockaddrStorage)

/-- Both structures start with the family and the port. -/
private theorem sockaddr_header (endpoint : Endpoint) :
    ∃ rest, endpoint.sockaddr order =
      (InetAddress.storeInt order endpoint.family).1 ++ ((networkPort endpoint.port).1 ++ rest) := by
  cases endpoint with
  | ipv4 address port => exact ⟨address.1 ++ List.replicate 8 0, by simp [Endpoint.sockaddr,
      Endpoint.family, Endpoint.port, InetAddress.storeInt, networkPort]⟩
  | ipv6 address port flowinfo scopeId =>
      exact ⟨flowinfo.1 ++ address.1 ++ scopeId.1, by simp [Endpoint.sockaddr,
        Endpoint.family, Endpoint.port, InetAddress.storeInt, networkPort]⟩

/-- Four bytes are enough for them. -/
private theorem kernelStores_header (endpoint : Endpoint) {addrlen : Nat} (enough : 4 ≤ addrlen) :
    SockaddrIn.sinFamily.get (kernelStores order endpoint addrlen storage) =
        InetAddress.storeInt order endpoint.family ∧
      SockaddrIn.sinPort.get (kernelStores order endpoint addrlen storage) =
        networkPort endpoint.port := by
  obtain ⟨rest, shape⟩ := sockaddr_header order endpoint
  have family := (InetAddress.storeInt order endpoint.family).2
  have port := (networkPort endpoint.port).2
  have taken : (endpoint.sockaddr order).take addrlen =
      (InetAddress.storeInt order endpoint.family).1 ++
        ((networkPort endpoint.port).1 ++ rest.take (addrlen - 4)) := by
    rw [shape, List.take_append, List.take_append, family, port,
      List.take_of_length_le (by omega), List.take_of_length_le (by omega), Nat.sub_sub]
  have atFront : (endpoint.sockaddr order).take addrlen = [] ++
      (InetAddress.storeInt order endpoint.family).1 ++
        ((networkPort endpoint.port).1 ++ rest.take (addrlen - 4)) := taken
  rw [← List.append_assoc] at taken
  exact ⟨Member.get_fill_inside atFront rfl _ _, Member.get_fill_inside taken family _ _⟩

/-- Eight bytes are enough for an IPv4 address. -/
theorem kernelStores_ipv4 (address : Block 4) {addrlen : Nat} (enough : 8 ≤ addrlen) :
    HoldsIpv4 order (kernelStores order (.ipv4 address port) addrlen storage) address port := by
  obtain ⟨family, portStored⟩ :=
    kernelStores_header order storage (.ipv4 address port) (Nat.le_trans (by decide) enough)
  refine ⟨family, portStored, ?_⟩
  have front : (order.store afInet ++ ByteOrder.big.store port).length = 4 := by simp
  have taken : (Endpoint.sockaddr order (.ipv4 address port)).take addrlen =
      order.store afInet ++ ByteOrder.big.store port ++ address.1 ++
        (List.replicate 8 0).take (addrlen - 8) := by
    have length := address.2
    rw [Endpoint.sockaddr, List.take_append, List.length_append, front, length,
      List.take_of_length_le (by rw [List.length_append]; omega)]
  exact Member.get_fill_inside taken front _ _

/-- Eight bytes end before an IPv6 address. -/
theorem kernelStores_ipv6_short (address : Block 16) (flowinfo scopeId : Block 4) :
    HoldsIpv6 order (kernelStores order (.ipv6 address port flowinfo scopeId) sizeofPointer
      (.zero _)) (.zero 16) port := by
  obtain ⟨family, portStored⟩ := kernelStores_header order (.zero _)
    (.ipv6 address port flowinfo scopeId) (show 4 ≤ sizeofPointer by decide)
  refine ⟨family, portStored, ?_⟩
  have behind : ((Endpoint.sockaddr order (.ipv6 address port flowinfo scopeId)).take
      sizeofPointer).length ≤ SockaddrIn6.sin6Addr.offset := List.length_take_le _ _
  rw [kernelStores, Member.get_fill_behind behind, Member.get_zero]

/-- The whole storage is enough for it. -/
theorem kernelStores_ipv6_whole (address : Block 16) (flowinfo scopeId : Block 4) :
    HoldsIpv6 order (kernelStores order (.ipv6 address port flowinfo scopeId)
      sizeofSockaddrStorage storage) address port := by
  obtain ⟨family, portStored⟩ := kernelStores_header order storage
    (.ipv6 address port flowinfo scopeId) (show 4 ≤ sizeofSockaddrStorage by decide)
  refine ⟨family, portStored, ?_⟩
  have front : (order.store afInet6 ++ ByteOrder.big.store port ++ flowinfo.1).length = 8 := by
    simp [flowinfo.2]
  have bound := (Endpoint.ipv6 address port flowinfo scopeId).length_sockaddr_le order
  have taken : (Endpoint.sockaddr order (.ipv6 address port flowinfo scopeId)).take
      sizeofSockaddrStorage = order.store afInet6 ++ ByteOrder.big.store port ++ flowinfo.1 ++
        address.1 ++ scopeId.1 :=
    List.take_of_length_le (Nat.le_trans bound (by decide))
  exact Member.get_fill_inside taken front _ _

/-- `get_local_addr` and `get_peer_addr` lose nothing. -/
theorem getAddr_presents (endpoint : Endpoint) :
    (InetAddress.mk (Sockets.getAddr order (some endpoint))).Presents order endpoint := by
  cases endpoint with
  | ipv4 address port => exact (kernelStores_ipv4 order port _ address (by decide)).presents
  | ipv6 address port flowinfo scopeId =>
      exact ((kernelStores_ipv6_whole order port _ address flowinfo scopeId).presents_iff
        address flowinfo scopeId).mpr rfl

/-- `Accept` loses every IPv6 address but the unspecified one. -/
theorem accept_presents_iff (peer : Endpoint) (peerAddr : InetAddress) :
    (Socket.accept order (some peer) peerAddr).Presents order peer ↔
      peer.family = afInet ∨ peer.address = List.replicate 16 0 := by
  change (InetAddress.mk (kernelStores order peer sizeofPointer (.zero _))).Presents order peer ↔ _
  cases peer with
  | ipv4 address port =>
      exact iff_of_true (kernelStores_ipv4 order port _ address (by decide)).presents (.inl rfl)
  | ipv6 address port flowinfo scopeId =>
      rw [(kernelStores_ipv6_short order port address flowinfo scopeId).presents_iff]
      constructor
      · rintro rfl
        exact .inr rfl
      · rintro (ipv4 | unspecified)
        · exact absurd ipv4 afInet6_ne_afInet
        · exact Subtype.ext unspecified.symm

end Stored

section Created

variable {order : ByteOrder} {inetPton : InetPton} {port : Port} {ip : String}
  {storage : SockaddrStorage}

/-- The second half of the constructor, whatever the first one has left. -/
theorem createIpv4_holds {address : Block 4} (valid : inetPton.ipv4 ip = some address) :
    ∃ created, InetAddress.createIpv4 order inetPton port ip storage = some ⟨created⟩ ∧
      HoldsIpv4 order created address port := by
  refine ⟨_, by rw [InetAddress.createIpv4, valid]; rfl, ?_, ?_, Member.get_set ..⟩
  · rw [Member.get_set_of_disjoint (.inl (by decide)), Member.get_set_of_disjoint (.inl (by decide)),
      Member.get_set]
  · rw [Member.get_set_of_disjoint (.inl (by decide)), Member.get_set, storeInt_htobe]

/-- The constructor writes a valid IPv6 address into the storage. -/
theorem create_ipv6_holds {address : Block 16} (valid : inetPton.ipv6 ip = some address) :
    ∃ created, InetAddress.create order inetPton port ip true = some ⟨created⟩ ∧
      HoldsIpv6 order created address port := by
  refine ⟨_, by simp only [InetAddress.create, valid]; rfl, ?_, ?_, Member.get_set ..⟩
  · rw [Member.get_set_of_disjoint (.inl (by decide)), Member.get_set_of_disjoint (.inl (by decide)),
      Member.get_set]
  · rw [Member.get_set_of_disjoint (.inl (by decide)), Member.get_set, storeInt_htobe]

/-- The kernel reads an IPv4 address in full. -/
theorem HoldsIpv4.kernelReads {address : Block 4} (holds : HoldsIpv4 order storage address port) :
    kernelReads order storage sizeofSockaddr = some (.ipv4 address port) := by
  rw [Benet.kernelReads, holds.family, load_storeInt, holds.address, holds.port,
    if_pos ⟨rfl, Nat.le_refl _⟩]
  exact congrArg (some <| Endpoint.ipv4 address ·) (ByteOrder.big.load_store port)

/-- A `sockaddr` is too short for the other structure. -/
theorem HoldsIpv6.kernelReads {address : Block 16} (holds : HoldsIpv6 order storage address port) :
    kernelReads order storage sizeofSockaddr = none := by
  have family : SockaddrIn.sinFamily.get storage = _ := holds.family
  simp only [Benet.kernelReads, family, load_storeInt]
  rw [if_neg fun ipv4 => afInet6_ne_afInet ipv4.1, if_neg fun ipv6 => absurd ipv6.2 (by decide)]

/-- Every literal makes an address that `bind` and `connect` take exactly when it is an
IPv4 address. -/
theorem create_kernelReads_iff {ipv6 : Bool} {target : Endpoint}
    (valid : InetAddress.literal inetPton port ip ipv6 = some target) :
    ∃ created, InetAddress.create order inetPton port ip ipv6 = some ⟨created⟩ ∧
      (InetAddress.mk created).Presents order target ∧
      (kernelReads order created sizeofSockaddr = some target ↔ target.family = afInet) := by
  unfold InetAddress.literal at valid
  split at valid
  case h_1 address asked =>
    cases valid
    cases ipv6 with
    | false => cases asked
    | true =>
        obtain ⟨created, made, holds⟩ := create_ipv6_holds asked
        refine ⟨created, made, (holds.presents_iff _ _ _).mpr rfl, ?_⟩
        rw [holds.kernelReads]
        exact iff_of_false nofun afInet6_ne_afInet
  case h_2 other =>
    obtain ⟨address, valid4, rfl⟩ := Option.map_eq_some_iff.mp valid
    have falls : ∃ storage, InetAddress.create order inetPton port ip ipv6 =
        InetAddress.createIpv4 order inetPton port ip storage := by
      cases ipv6 with
      | false => exact ⟨_, rfl⟩
      | true =>
          have none6 : inetPton.ipv6 ip = none := other
          exact ⟨_, by simp only [InetAddress.create, none6]; rfl⟩
    obtain ⟨storage, same⟩ := falls
    obtain ⟨created, made, holds⟩ := createIpv4_holds valid4
    exact ⟨created, same.trans made, holds.presents, iff_of_true holds.kernelReads rfl⟩

end Created

/-- On a host of either byte order and for every `inet_pton`. The address of a peer comes
through `Accept` if and only if it is an IPv4 address or the unspecified IPv6 address;
the address of a literal reaches `bind` and `connect` if and only if it is IPv4. -/
theorem addresses_intact_iff (order : ByteOrder) (inetPton : InetPton) :
    (∀ peer peerAddr, (Socket.accept order (some peer) peerAddr).Presents order peer ↔
      peer.family = afInet ∨ peer.address = List.replicate 16 0) ∧
    ∀ port ip ipv6 target, InetAddress.literal inetPton port ip ipv6 = some target →
      ∃ created, InetAddress.create order inetPton port ip ipv6 = some created ∧
        (Sockets.bindOrDie order created = some target ↔ target.family = afInet) ∧
        (Sockets.connect order created = some target ↔ target.family = afInet) := by
  refine ⟨accept_presents_iff order, fun port ip ipv6 target valid => ?_⟩
  obtain ⟨created, made, -, taken⟩ := create_kernelReads_iff valid
  exact ⟨⟨created⟩, made, taken, taken⟩

/-- The loopback addresses under two texts. -/
def loopback : InetPton where
  ipv4 ip := if ip = "127.0.0.1" then some ⟨[127, 0, 0, 1], rfl⟩ else none
  ipv6 ip := if ip = "::1" then some ⟨List.replicate 15 0 ++ [1], rfl⟩ else none

/-- The IPv4 loopback address is created, bound and accepted intact. -/
theorem addresses_intact_loopback :
    ∃ created, InetAddress.create .little loopback 8080 "127.0.0.1" false = some created ∧
      Sockets.bindOrDie .little created = some (.ipv4 ⟨[127, 0, 0, 1], rfl⟩ 8080) ∧
      (Socket.accept .little (some (.ipv4 ⟨[127, 0, 0, 1], rfl⟩ 8080)) created).Presents .little
        (.ipv4 ⟨[127, 0, 0, 1], rfl⟩ 8080) := by
  obtain ⟨accepts, builds⟩ := addresses_intact_iff .little loopback
  obtain ⟨created, made, bound, -⟩ :=
    builds 8080 "127.0.0.1" false (.ipv4 ⟨[127, 0, 0, 1], rfl⟩ 8080) (by decide)
  exact ⟨created, made, bound.mpr rfl, (accepts _ created).mpr (.inl rfl)⟩

/-- The IPv6 loopback address: a peer with it is reported as `::`, and a server cannot
be bound to it. -/
theorem addresses_cut_short :
    (Socket.accept .little (some (.ipv6 ⟨List.replicate 15 0 ++ [1], rfl⟩ 8080 (.zero 4) (.zero 4)))
      ⟨.zero _⟩).ipBytes .little = List.replicate 16 0 ∧
    ∃ created, InetAddress.create .little loopback 8080 "::1" true = some created ∧
      created.ipBytes .little = List.replicate 15 0 ++ [1] ∧
      Sockets.bindOrDie .little created = none ∧ Sockets.connect .little created = none := by
  refine ⟨by decide +kernel,
    (InetAddress.create .little loopback 8080 "::1" true).get (by decide +kernel),
    (Option.some_get _).symm, ?_⟩
  decide +kernel

end Benet
