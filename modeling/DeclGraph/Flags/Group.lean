/-! Groups of adjacent bits in a 32-bit flag word. A group holds a small code, counted from its lowest bit. -/
namespace DeclGraph

/-- The `width` bits of a flag word that start at bit `shift`. -/
structure BitGroup where
  shift : Nat
  width : Nat
  deriving DecidableEq, Repr

namespace BitGroup

/-- The group made of one bit. -/
def bit (n : Nat) : BitGroup := ⟨n, 1⟩

/-- The bits of the group, as a word. -/
def mask (g : BitGroup) : UInt32 := UInt32.ofNat ((1 <<< g.width - 1) <<< g.shift)

/-- The code that a word holds in the group. -/
def code (g : BitGroup) (word : UInt32) : UInt32 := (word &&& g.mask) >>> UInt32.ofNat g.shift

/-- The word that holds `code` in the group and nothing elsewhere. -/
def place (g : BitGroup) (code : UInt32) : UInt32 := code <<< UInt32.ofNat g.shift

/-- Replace the code that a word holds in the group. -/
def put (g : BitGroup) (code word : UInt32) : UInt32 := (word &&& ~~~g.mask) ||| g.place code

end BitGroup
end DeclGraph
