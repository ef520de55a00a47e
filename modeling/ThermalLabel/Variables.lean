import ThermalLabel.Calendar
import ThermalLabel.Json.Decode
import ThermalLabel.Text.Replace

/-! # Variables

Contents may hold tokens such as `{sku}`. A variable map gives their values; its keys are taken
literally, with their braces. The keys are replaced one after another in key order, each in the
result of the one before, so the result is fixed also where keys overlap or values hold tokens. -/

namespace ThermalLabel

/-- Values for tokens. -/
abbrev Variables := StringMap String

namespace Variables

/-- A text with every key replaced by its value. An empty key is passed over. -/
def resolve (vars : Variables) (text : String) : String :=
  vars.toList.foldl (fun text e => Text.replace e.1 e.2 text) text

/-- A token for a name. -/
def token (name : String) : String := "\x7b" ++ name ++ "\x7d"

/-- Variables with sample values that every session has. -/
def samples : List (String × String) := [
  (token "company", "ACME Corp"),
  (token "product", "Product Name"),
  (token "price", "$9.99"),
  (token "sku", "SKU-000123"),
  (token "batch", "B-0001")]

/-- Date and time of a clock as variables. -/
def clock (date : Date) (time : ClockTime) : List (String × String) :=
  let clockText := Text.padded 2 time.hour ++ ":" ++ Text.padded 2 time.minute
  [(token "date", date.text), (token "time", clockText),
    (token "datetime", date.text ++ " " ++ clockText)]

/-- The variables of a job: clock and samples, with the operator's own laid over them. -/
def withDefaults (date : Date) (time : ClockTime) (custom : Variables) : Variables :=
  (StringMap.ofList (clock date time ++ samples)).union custom

/-! ### JSON -/

/-- Variables written down. -/
def toTree {α : Type} (vars : Variables) : Json.Tree α :=
  .object (vars.toList.map fun e => (e.1, .string e.2))

end Variables

end ThermalLabel
