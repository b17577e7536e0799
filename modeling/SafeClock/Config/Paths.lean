import SafeClock.Config.Decode

/-!
# Configurations with paths of the system

A document holds texts. So a configuration can be written only if each of its paths has a text, and
what is read from a document has the paths of the texts that stand there. Both go by way of the
configuration with texts for paths, which is written and read by `toValue` and `ofValue?`.
-/

set_option autoImplicit false

namespace SafeClock.Config

variable {π : Type} [PathKind π]

/-- The paths of a configuration. -/
def paths (c : Config π) : List π :=
  [c.platform.header, c.toolchain.workingDirectory, c.testbench.failureOutput] ++
    c.logging.directory.toList

/-- The configuration with the texts of its paths, none if one of them has no text. -/
def textual? (c : Config π) : Option Config := do
  let header ← PathKind.text? c.platform.header
  let workingDirectory ← PathKind.text? c.toolchain.workingDirectory
  let failureOutput ← PathKind.text? c.testbench.failureOutput
  let directory ← PathKind.optionalText? c.logging.directory
  return {
    c with
    platform := { c.platform with header }
    toolchain := { c.toolchain with workingDirectory }
    testbench := { c.testbench with failureOutput }
    logging := { c.logging with directory } }

/-- The configuration with the paths that its texts give. -/
def ofTextual (c : Config) : Config π :=
  { c with
    platform := { c.platform with header := PathKind.ofText c.platform.header }
    toolchain :=
      { c.toolchain with workingDirectory := PathKind.ofText c.toolchain.workingDirectory }
    testbench := { c.testbench with failureOutput := PathKind.ofText c.testbench.failureOutput }
    logging := { c.logging with directory := c.logging.directory.map PathKind.ofText } }

/-- Writes a configuration as a document. A path without a text cannot be written. -/
def write? (c : Config π) : Option Value :=
  c.textual?.map toValue

/-- Reads a document as a configuration. -/
def read? (d : Dialect) (v : Value) : Option (Config π) :=
  (ofValue? d v).map ofTextual

end SafeClock.Config
