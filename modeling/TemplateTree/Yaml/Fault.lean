/-!
# Faults of data files

The causes for which the reader of data files gives up. Most texts that cannot be read are
malformed; a value that was asked for by a tag, or by its spelling, and does not exist has a cause
of its own.
-/

namespace TemplateTree.Yaml

/-- Why a data file has no value. -/
inductive Fault where
  /-- The text is not a document, or a value does not fit its tag. -/
  | malformed
  /-- An escape names a number that is no code point. -/
  | badCharacter
  /-- An escape names a number of more than 31 bits. -/
  | hugeCharacter
  /-- A number cannot be read, or has too many digits. -/
  | badNumber
  /-- The calendar or the clock has no such moment. -/
  | badDate
  /-- A number has no characters. -/
  | emptyNumber
  /-- A number in base sixty has too many parts. -/
  | hugeNumber
  /-- A truth value is no word for one. -/
  | badTruth
  /-- A moment is not written as one. -/
  | badMoment
  /-- A moment is given as the value of a mapping. -/
  | mappedMoment
  /-- A scalar is given as the value of a mapping, and so on without end. -/
  | endlessScalar
  /-- The text ends inside a quoted scalar. -/
  | unclosed
  /-- The bytes behind some readable text cannot be decoded. -/
  | undecodable
deriving DecidableEq, Repr

end TemplateTree.Yaml
