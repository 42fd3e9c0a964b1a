import BtClient.Json

/-!
# JSON as text

What the client relies on in `nlohmann::json` when it writes values to files and reads
them back. `parse` is `stream >> value`, which reads the first value of the text and does
not look at what follows it.
-/

namespace BtClient

/-- The byte `'\n'`. -/
def newline : UInt8 := 10

class JsonText where
  /-- The values of the finite doubles. -/
  isDouble : ℚ → Bool
  /-- `value.dump()` -/
  dump : Json → ByteString
  /-- `value.dump(2)` -/
  dumpIndented : Json → ByteString
  parse : ByteString → Option Json
  /-- The strings of a value that was read are UTF-8. -/
  isUtf8_of_parse : ∀ {text : ByteString} {v : Json}, parse text = some v → v.isUtf8 = true
  /-- Its real numbers are doubles, and its members are in order. -/
  isPlain_of_parse : ∀ {text : ByteString} {v : Json}, parse text = some v →
    v.isPlain isDouble = true
  /-- A value that was written is read back. -/
  parse_dumpIndented : ∀ v : Json, v.isUtf8 = true → v.isPlain isDouble = true →
    parse (dumpIndented v ++ [newline]) = some v
  /-- Of an object, the first bytes are no other value. -/
  parse_prefix : ∀ (v w : Json) (text : ByteString), v.isUtf8 = true →
    v.isPlain isDouble = true → v.isObject = true → text <+: dumpIndented v ++ [newline] →
    parse text = some w → w = v

namespace JsonText

variable [JsonText]

theorem parse_nil : parse [] = none := by
  cases h : parse [] with
  | none => rfl
  | some w =>
      have hempty := parse_prefix (.object []) w [] rfl rfl rfl List.nil_prefix h
      have hmember := parse_prefix (.object [("state", .null)]) w [] rfl rfl rfl
        List.nil_prefix h
      rw [hempty] at hmember
      cases hmember

end JsonText

end BtClient
