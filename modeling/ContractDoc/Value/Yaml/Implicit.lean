import ContractDoc.Text.Pattern

/-!
# Implicit types of plain YAML scalars

A plain scalar may read as a boolean, a number, a date, null or a merge key
instead of a text.  A text that does must be quoted.
-/

namespace ContractDoc
namespace Yaml

open Text

/-- An optional sign. -/
def sign : Pattern := .optional (.oneOf "-+")

/-- A decimal digit. -/
def digit : Pattern := .range '0' '9'

/-- A decimal digit or an underscore, which groups digits. -/
def groupedDigit : Pattern := .any [digit, .oneOf "_"]

/-- A colon and a number below sixty, at least once. -/
def sexagesimals : Pattern :=
  .some (.all [.oneOf ":", .optional (.range '0' '5'), digit])

/-- Words that read as booleans. -/
def booleans : Pattern :=
  .words ["yes", "Yes", "YES", "no", "No", "NO", "true", "True", "TRUE", "false", "False",
    "FALSE", "on", "On", "ON", "off", "Off", "OFF"]

/-- Words that read as null, merge keys and default values. -/
def reserved : Pattern :=
  .words ["~", "null", "Null", "NULL", "", "<<", "="]

/-- Texts that read as integers. -/
def integers : Pattern :=
  .seq sign <| .any [
    .all [.literal "0b", .some (.oneOf "01_")],
    .all [.literal "0", .some (.any [.range '0' '7', .oneOf "_"])],
    .literal "0",
    .all [.range '1' '9', .many groupedDigit],
    .all [.literal "0x",
      .some (.any [digit, .range 'a' 'f', .range 'A' 'F', .oneOf "_"])],
    .all [.range '1' '9', .many groupedDigit, sexagesimals]]

/-- The power of ten of a decimal fraction. -/
def exponent : Pattern :=
  .all [.oneOf "eE", .oneOf "-+", .some digit]

/-- Texts that read as decimal fractions, infinities or non-numbers. -/
def fractions : Pattern :=
  .any [
    .all [sign, digit, .many groupedDigit, .literal ".", .many groupedDigit,
      .optional exponent],
    .all [.literal ".", digit, .many groupedDigit, .optional exponent],
    .all [sign, digit, .many groupedDigit, sexagesimals, .literal ".",
      .many groupedDigit],
    .all [sign, .words [".inf", ".Inf", ".INF"]],
    .words [".nan", ".NaN", ".NAN"]]

/-- One or two digits. -/
def shortNumber : Pattern := .all [digit, .optional digit]

/-- Two digits. -/
def twoDigits : Pattern := .all [digit, digit]

/-- Four digits. -/
def fourDigits : Pattern := .all [twoDigits, twoDigits]

/-- Blanks on a line. -/
def blanks : Pattern := .many (.oneOf " \t")

/-- Texts that read as dates or points in time. -/
def timestamps : Pattern :=
  .any [
    .all [fourDigits, .literal "-", twoDigits, .literal "-", twoDigits],
    .all [fourDigits, .literal "-", shortNumber, .literal "-", shortNumber,
      .any [.oneOf "Tt", .some (.oneOf " \t")],
      shortNumber, .literal ":", twoDigits, .literal ":", twoDigits,
      .optional (.all [.literal ".", .many digit]),
      .optional (.all [blanks, .any [.literal "Z",
        .all [.oneOf "-+", shortNumber, .optional (.all [.literal ":", twoDigits])]]])]]

/-- Texts that are read as something else when they stand plain. -/
def implicit : Pattern :=
  .any [booleans, reserved, integers, fractions, timestamps]

/-- Whether a plain text would be read as something else. -/
def readsAsOther (text : List Char) : Bool :=
  implicit.accepts text

end Yaml
end ContractDoc
