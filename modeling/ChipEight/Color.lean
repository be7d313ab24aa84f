import ChipEight.Word

/-!
# Colours and schemes

A colour is three bytes. A `Scheme` gives a lit and a dark pixel their colours; three schemes have
names. A `PaintFault` is the reason why a picture cannot be painted.
-/

namespace ChipEight

/-- A colour by its three components. -/
structure Color where
  red : Byte
  green : Byte
  blue : Byte
deriving DecidableEq, Repr, Inhabited

/-- The colours of lit and of dark pixels. -/
structure Scheme where
  on : Color
  off : Color
deriving DecidableEq, Repr

/-- Why a picture cannot be painted. -/
inductive PaintFault where
  /-- No scheme has this name. -/
  | unknownScheme (name : String)
  /-- A component of a colour is no byte. -/
  | notAByte (component : Int)
  /-- A pixel is neither dark nor lit. -/
  | noColor (index : Nat)
  /-- A picture has another size than the surface. -/
  | sizeMismatch
deriving DecidableEq, Repr

namespace Color

/-- The colour of dark pixels in every scheme that has a name. -/
def black : Color := ⟨0, 0, 0⟩

/-- A component of a colour, which has to be a byte. -/
def byte? (n : Int) : Except PaintFault Byte :=
  if 0 ≤ n ∧ n < 256 then .ok (UInt8.ofNat n.toNat) else .error (.notAByte n)

/-- The colour with these components, which have to be bytes. -/
def ofInts (red green blue : Int) : Except PaintFault Color := do
  return ⟨← byte? red, ← byte? green, ← byte? blue⟩

end Color

namespace Scheme

def classic : Scheme := ⟨⟨0, 255, 0⟩, Color.black⟩

def amber : Scheme := ⟨⟨255, 176, 0⟩, Color.black⟩

def white : Scheme := ⟨⟨255, 255, 255⟩, Color.black⟩

/-- The schemes with their names in alphabetical order. -/
def named : List (String × Scheme) := [("amber", amber), ("classic", classic), ("white", white)]

/-- The scheme with this name; a name that there is not is refused with all names that there are. -/
def ofName (name : String) : Except PaintFault Scheme :=
  match named.lookup name with
  | some scheme => .ok scheme
  | none => .error (.unknownScheme name)

/-- The colour of a pixel. -/
def color (s : Scheme) (lit : Bool) : Color := if lit then s.on else s.off

end Scheme

def PaintFault.message : PaintFault → String
  | unknownScheme name => "Unknown color scheme '" ++ name ++ "'. Available: [" ++
    String.intercalate ", " (Scheme.named.map fun entry => "'" ++ entry.1 ++ "'") ++ "]"
  | notAByte component => s!"Python integer {component} out of bounds for uint8"
  | noColor index => s!"index {index} is out of bounds for axis 0 with size 2"
  | sizeMismatch => "array must match surface dimensions"

end ChipEight
