import DocScaffold.Host.Yaml.Timestamp
import DocScaffold.Yaml.Reader

/-!
# Errors of YAML
-/

namespace DocScaffold.Yaml

/-- Why a text has no value. All but the first name a scalar that contradicts its tag, or a number
out of bounds. -/
inductive Error
  /-- It breaks the rules of YAML. -/
  | malformed
  /-- An escape names a code point behind the last one. -/
  | noCodePoint
  /-- An escape names a code point behind all words of 32 bits with a sign. -/
  | hugeCodePoint
  | notInteger (base : Nat) (shown : Codes)
  | tooManyDigits (count : Nat)
  | notFloat (shown : Codes)
  /-- A number in base 60 has too many places. -/
  | hugeFloat
  | noMoment (fault : Moment.Fault)
  /-- A scalar tagged as a truth value is none. -/
  | notBool (word : Codes)
  /-- A scalar tagged as a number is empty. -/
  | emptyNumber
  /-- A scalar tagged as a timestamp is none. -/
  | notTimestamp
  /-- A mapping stands in the place of a timestamp. -/
  | notText

namespace Error

/-- What a text is refused for. Which of the rules it breaks is not explained. -/
def refusal : Error → Refusal
  | malformed => .malformed []
  | noCodePoint => .raised (.wrongValue "chr() arg not in range(0x110000)".toList)
  | hugeCodePoint => overflow "Python int too large to convert to C int"
  | notInteger base shown => .raised (.wrongValue ("invalid literal for int() with base ".toList ++
      Text.ofNat base ++ ": ".toList ++ (Codes.quote shown).take 200))
  | tooManyDigits count => .raised (.wrongValue (Raised.limitText
      (": value has ".toList ++ Text.ofNat count ++ " digits".toList)))
  | notFloat shown =>
    .raised (.wrongValue ("could not convert string to float: ".toList ++ Codes.quote shown))
  | hugeFloat => overflow "int too large to convert to float"
  | noMoment fault => .raised (.wrongValue fault.message)
  | notBool word => .raised ⟨"KeyError".toList, Codes.quote word, false⟩
  | emptyNumber => .raised ⟨"IndexError".toList, "string index out of range".toList, false⟩
  | notTimestamp => .raised ⟨"AttributeError".toList,
      "'NoneType' object has no attribute 'groupdict'".toList, false⟩
  | notText => .raised ⟨"TypeError".toList,
      "expected string or bytes-like object, got 'list'".toList, false⟩
where
  overflow (message : String) : Refusal := .raised ⟨"OverflowError".toList, message.toList, false⟩

end Error

end DocScaffold.Yaml
