import Reactor.Digits
import Reactor.Net.ConnectionNames
import Mathlib.Data.BitVec

/-! Socket addresses and their texts. `toIpPort` makes the text of the address a server listens
at, which goes into the names of its connections; `fromIpPort` reads one back. -/
namespace Reactor.Net
open Reactor.Digits

def inetAddrstrlen : Nat := 16
def inet6Addrstrlen : Nat := 46

/-- The byte order of the host. -/
inductive Endian
  | little
  | big
  deriving DecidableEq

def Endian.toNetwork : Endian → BitVec 16 → BitVec 16
  | .little, w => (w <<< 8) ||| (w >>> 8)
  | .big, w => w

def networkToHost16 (host : Endian) (net16 : BitVec 16) : BitVec 16 := host.toNetwork net16

/-- What the standard says of `inet_ntop` and `inet_pton`. -/
structure InetText where
  ntop4 : BitVec 32 → List Char
  pton4 : List Char → Option (BitVec 32)
  ntop6 : BitVec 128 → List Char
  pton6 : List Char → Option (BitVec 128)
  reads4 : ∀ a, pton4 (ntop4 a) = some a
  reads6 : ∀ a, pton6 (ntop6 a) = some a
  fits4 : ∀ a, (ntop4 a).length + 1 ≤ inetAddrstrlen
  fits6 : ∀ a, (ntop6 a).length + 1 ≤ inet6Addrstrlen
  plain4 : ∀ a, ':' ∉ ntop4 a
  colon6 : ∀ a, ':' ∈ ntop6 a
  ends4 : ∀ a, '\x00' ∉ ntop4 a
  ends6 : ∀ a, '\x00' ∉ ntop6 a
  dash4 : ∀ a, '-' ∉ ntop4 a
  dash6 : ∀ a, '-' ∉ ntop6 a

section
variable (lib : InetText) (host : Endian)

end

/-- What an address is for: where to reach a socket. -/
inductive Endpoint
  | v4 (addr : BitVec 32) (port : BitVec 16)
  | v6 (addr : BitVec 128) (port : BitVec 16)
  deriving DecidableEq

namespace Endpoint

def port : Endpoint → BitVec 16
  | .v4 _ p | .v6 _ p => p

def ip (lib : InetText) : Endpoint → List Char
  | .v4 a _ => lib.ntop4 a
  | .v6 a _ => lib.ntop6 a

/-- The address and the port as they are written. -/
def text (lib : InetText) (host : Endian) (x : Endpoint) : List Char :=
  x.ip lib ++ ':' :: (toString (networkToHost16 host x.port).toNat).toList

end Endpoint

section
variable {lib : InetText} {host : Endian} {a : SockaddrIn6} {x y : Endpoint}

end

end Reactor.Net
