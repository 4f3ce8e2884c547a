import Reactor.Net.ActiveChannels
import Mathlib.Algebra.Group.Nat.Defs
import Mathlib.Data.List.Nodup

/-! The names of the connections. `newConnection` formats the address of the server and the
number of the connection into 64 bytes, and what does not fit would be cut off. A `Char` is
one byte of a `std::string`. -/
namespace Reactor.Net
open Reactor.Transition

/-- What `%s` reads of `c_str()`. -/
def cStr (s : String) : List Char := s.toList.takeWhile fun b => b ≠ '\x00'

/-- The text that `snprintf` leaves in a buffer, without the terminator. -/
def snprintf (size : Nat) (text : List Char) : List Char := text.take (size-1)

/-- The format `"-%s#%d"`. -/
def connText (ipPort : String) (nextConnId : Nat) : List Char :=
  '-' :: cStr ipPort ++ '#' :: (toString nextConnId).toList

/-- The name as `newConnection` makes it, with what `snprintf` left of the text. -/
def bufferedConnName (name ipPort : String) (nextConnId : Nat) : String :=
  name ++ String.ofList (snprintf 64 (connText ipPort nextConnId))

theorem decimal_length {c : Nat} (bound : c < 2^31) : (toString c).toList.length ≤ 10 := by
  have digits : (toString c).toList = Nat.toDigits 10 c := by simp
  rw [digits]
  exact (Nat.length_toDigits_le_iff (by decide) (by decide)).mpr (bound.trans (by decide))

section
variable {ipPort : String} (name : String) {c d : Nat}

theorem cStr_length (ipPort : String) : (cStr ipPort).length ≤ ipPort.length :=
  (List.takeWhile_prefix _).length_le

/-- The longest text leaves just the room for its terminator. -/
theorem connText_fits (short : ipPort.length ≤ 51) (bound : c < 2^31) : (connText ipPort c).length < 64 := by
  have address := cStr_length ipPort
  have digits := decimal_length bound
  simp only [connText,List.length_append,List.length_cons]
  omega

theorem snprintf_fits {size : Nat} {text : List Char} (fits : text.length < size) : snprintf size text = text :=
  List.take_of_length_le (by omega)

/-- Nothing is cut off: the name is the one that the connections are told apart by. -/
theorem bufferedConnName_eq (short : ipPort.length ≤ 51) (plain : '\x00' ∉ ipPort.toList) (bound : c < 2^31) :
    bufferedConnName name ipPort c = connName name ipPort c := by
  have whole : cStr ipPort = ipPort.toList := by
    apply List.takeWhile_eq_self_iff.mpr
    intro b member
    have other : b ≠ '\x00' := fun zero => plain (zero ▸ member)
    simp [other]
  apply String.toList_injective
  rw [bufferedConnName,snprintf_fits (connText_fits short bound),connText,whole]
  simp [connName]

end

section
variable {names : Nat → String} {s u v : Server} {i c : Nat} {k : Conn} {fd : EventFd} {l : ServerLabel}

namespace Placed

end Placed

end

end Reactor.Net
