/-! Text as a list of code points, the decimal spelling of numbers and the bytes of UTF-8. -/
namespace DartNodes

/-- Text is compared, counted and cut by code points. -/
abbrev Text := List Char

/-- A string literal stands for its code points. -/
instance : Coe String Text := ⟨String.toList⟩

namespace Text

/-- The decimal spelling of a number. -/
def ofNat (n : Nat) : Text := Nat.toDigits 10 n

/-- The UTF-8 of a text. -/
def toBytes (t : Text) : ByteArray := (String.ofList t).toUTF8

/-- The text that some bytes spell, if they are well-formed UTF-8. -/
def ofBytes? (bytes : ByteArray) : Option Text := (String.fromUTF8? bytes).map String.toList

@[simp] theorem toBytes_append (s t : Text) : toBytes (s ++ t) = s.toBytes ++ t.toBytes := by
  simp [toBytes]

@[simp] theorem ofBytes?_toBytes (t : Text) : ofBytes? t.toBytes = some t := by
  have h : (toBytes t).IsValidUTF8 := (String.ofList t).isValidUTF8
  have hs : String.fromUTF8 (toBytes t) h = String.ofList t := rfl
  rw [ofBytes?, String.fromUTF8?, dif_pos h, hs]
  simp

/-- Bytes that spell a text are the UTF-8 of that text. -/
theorem eq_toBytes_of_ofBytes? {bytes : ByteArray} {t : Text} (h : ofBytes? bytes = some t) :
    bytes = t.toBytes := by
  obtain ⟨s, hs, rfl⟩ := Option.map_eq_some_iff.mp h
  unfold String.fromUTF8? at hs
  split at hs
  · cases hs
    simp [toBytes, String.fromUTF8]
  · cases hs

/-- The number of bytes that the text takes in UTF-8. -/
def byteCount (t : Text) : Nat := t.toBytes.size

@[simp] theorem byteCount_append (s t : Text) :
    byteCount (s ++ t) = s.byteCount + t.byteCount := by
  simp [byteCount]

end Text
end DartNodes
