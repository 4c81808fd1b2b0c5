import FlowListing.Encoding.Codec

/-!
# Encodings by name

A name is compared without regard to case, and any run of characters other than letters, digits and points counts as one
underscore between its parts. Some names belong to encodings that turn bytes into bytes: they are known, but no text can be
read with them.

What reads text is a `Decoder`, which stands for any codec whatsoever: it gives a text, or names the bytes that are none, or fails in
another way. A name by itself stands for the decoder of the codec that goes by it here (`Decoder.named`).
-/

namespace FlowListing.Encoding

/-- What a name stands for. -/
inductive Named where
  | text (codec : Codec)
  /-- An encoding from bytes to bytes. -/
  | bytes
  /-- The encoding in which nothing can be read. -/
  | undefined
  deriving DecidableEq, Repr

/-- The characters of a name in lower case, with one underscore for each run of other characters between two parts. `gap` says
that such a run has just been passed, `started` that a part came before it. -/
def foldName : (gap started : Bool) → List Char → List Char
  | _, _, [] => []
  | gap, started, c :: rest =>
    if c.isAlphanum || c == '.' then
      (if gap && started then ['_', c.toLower] else [c.toLower]) ++ foldName false true rest
    else foldName true started rest

/-- The folded name that each encoding goes by. -/
def properNames : List (String × Named) :=
  [("shift_jis", .text .shiftJis), ("utf_8", .text .utf8), ("ascii", .text .ascii), ("latin_1", .text .latin1),
    ("hex_codec", .bytes), ("rot_13", .bytes), ("base64_codec", .bytes), ("zlib_codec", .bytes), ("bz2_codec", .bytes),
    ("uu_codec", .bytes), ("quopri_codec", .bytes), ("undefined", .undefined)]

/-- Other folded names. -/
def otherNames : List (String × Named) :=
  [("shiftjis", .text .shiftJis), ("sjis", .text .shiftJis), ("s_jis", .text .shiftJis),
    ("csshiftjis", .text .shiftJis), ("x_mac_japanese", .text .shiftJis),
    ("utf8", .text .utf8), ("u8", .text .utf8), ("utf", .text .utf8), ("utf8_ucs2", .text .utf8),
    ("utf8_ucs4", .text .utf8), ("cp65001", .text .utf8),
    ("us_ascii", .text .ascii), ("us", .text .ascii), ("646", .text .ascii), ("ansi_x3.4_1968", .text .ascii),
    ("ansi_x3_4_1968", .text .ascii), ("ansi_x3.4_1986", .text .ascii), ("cp367", .text .ascii),
    ("csascii", .text .ascii), ("ibm367", .text .ascii), ("iso646_us", .text .ascii),
    ("iso_646.irv_1991", .text .ascii), ("iso_ir_6", .text .ascii),
    ("latin1", .text .latin1), ("latin", .text .latin1), ("l1", .text .latin1), ("iso_8859_1", .text .latin1),
    ("iso8859_1", .text .latin1), ("iso8859", .text .latin1), ("8859", .text .latin1), ("cp819", .text .latin1),
    ("csisolatin1", .text .latin1), ("ibm819", .text .latin1), ("iso_8859_1_1987", .text .latin1),
    ("iso_ir_100", .text .latin1),
    ("hex", .bytes), ("rot13", .bytes), ("base64", .bytes), ("base_64", .bytes), ("zip", .bytes), ("zlib", .bytes),
    ("bz2", .bytes), ("uu", .bytes), ("quopri", .bytes), ("quoted_printable", .bytes), ("quotedprintable", .bytes)]

/-- The encoding that a name stands for. In a name other than the proper one a point may stand for an underscore. -/
def named? (name : String) : Option Named :=
  let folded := foldName false false name.toList
  let pointless := folded.map fun c => if c == '.' then '_' else c
  List.lookup (String.ofList folded) otherNames
    <|> List.lookup (String.ofList pointless) otherNames
    <|> List.lookup (String.ofList folded) properNames

/-- Why a codec reads no text, other than that bytes are none in it. -/
inductive CodecFault where
  | unknown (name : String)
  | notText (name : String)
  /-- The codec failed in a way of its own. -/
  | failed (message : String)
  deriving DecidableEq, Repr

/-- The text of a fault. -/
def CodecFault.message : CodecFault → String
  | .unknown name => s!"unknown encoding: {name}"
  | .notText name => s!"'{name}' is not a text encoding; use codecs.decode() to handle arbitrary codecs"
  | .failed message => message

/-- The text codec that a name stands for. -/
def codecNamed (name : String) : Except CodecFault Codec :=
  match named? name with
  | some (.text codec) => .ok codec
  | some .bytes => .error (.notText name)
  | some .undefined => .error (.failed s!"decoding with '{name}' codec failed (UnicodeError: undefined encoding)")
  | none => .error (.unknown name)

/-! ## Decoders -/

/-- Why bytes are not read as text: they are none, or the codec reads no text. -/
inductive TextFault where
  | bytes (fault : DecodeFault)
  | codec (fault : CodecFault)
  deriving DecidableEq, Repr

/-- A decoder: the name that an encoding was asked for by, and what its codec makes of bytes. Any codec will do. -/
structure Decoder where
  name : String
  decode : List UInt8 → Except TextFault String

/-- The decoder of a codec of this library, under the name of the codec. -/
def Codec.decoder (codec : Codec) : Decoder where
  name := codec.name
  decode bytes := (codec.decode bytes).mapError .bytes

/-- The decoder of a name, for the codecs of this library. -/
def Decoder.named (name : String) : Decoder where
  name := name
  decode bytes :=
    match codecNamed name with
    | .error fault => .error (.codec fault)
    | .ok codec => codec.decoder.decode bytes

instance : Coe Codec Decoder := ⟨Codec.decoder⟩

instance : Coe String Decoder := ⟨Decoder.named⟩

/-- The text of bytes. No bytes are the empty text, and the codec is not asked. -/
def decodeText (decoder : Decoder) (bytes : List UInt8) : Except TextFault String :=
  if bytes.isEmpty then .ok "" else decoder.decode bytes

end FlowListing.Encoding
