import ResourceEngine.Cbor.Writing
import ResourceEngine.Codec.Media
import ResourceEngine.Json.Writing

/-!
# Answers

What a request yields is written in the format that the client accepts.
-/

namespace ResourceEngine

/-- A written answer and the media type it is declared as. -/
structure Encoded where
  contentType : String
  body : List UInt8

namespace Encoded

/-- The content type of answers in JSON. -/
def jsonType : String := "application/json; charset=utf-8"

/-- The content type of answers in CBOR. -/
def cborType : String := "application/cbor"

end Encoded

/-- Writes an output for an accepted media type. -/
def Output.encode (o : Output) (accept : String) : Except Problem Encoded :=
  match MediaFormat.ofAccept accept with
  | .error p => .error p
  | .ok .cbor => .ok ⟨Encoded.cborType, Cbor.write (Document.ofOutput o)⟩
  | .ok _ => .ok ⟨Encoded.jsonType, Text.toUtf8 (Json.write (Document.ofOutput o))⟩

end ResourceEngine
