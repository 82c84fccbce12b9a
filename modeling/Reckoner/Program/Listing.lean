import Reckoner.Program.Basic
import Reckoner.Text.Quoted

/-!
# Programs as text

Each operation has a code and a mnemonic.  `Operation.ofCode` reads an operation off its code and
arguments, `Operation.text` writes it, and `Program.listing` writes a program, one numbered line for
each instruction.
-/

set_option autoImplicit false

namespace Reckoner

/-- The mnemonic of an operator's operation. -/
def Operator.mnemonic : Operator → String
  | add => "ADD"
  | sub => "SUB"
  | mul => "MUL"
  | div => "DIV"
  | mod => "MOD"
  | pow => "POW"

namespace Operation

/-- The mnemonics and their codes. -/
def codes : List (String × Int) :=
  [("LOAD_CONST", 1), ("LOAD_VAR", 2), ("STORE_VAR", 3), ("POP_TOP", 4), ("ADD", 10), ("SUB", 11),
   ("MUL", 12), ("DIV", 13), ("MOD", 14), ("POW", 15), ("NEGATE", 16), ("CALL_FUNCTION", 20)]

/-- The code of a mnemonic. -/
def codeOf? (mnemonic : String) : Option Int := codes.lookup mnemonic

/-- The number of places for codes. -/
def codeLimit : Int := 32

/-- The operation of a code with its arguments and its constant.  Negative codes count from the end
of the places for codes. -/
def ofCode (code arg1 arg2 : Int) (value : Option Value) : Operation :=
  match if code < 0 then code + codeLimit else code with
  | 1 => match value with
    | some value => constant value
    | none => blank
  | 2 => load arg1
  | 3 => store arg1
  | 4 => discard
  | 10 => binary .add
  | 11 => binary .sub
  | 12 => binary .mul
  | 13 => binary .div
  | 14 => binary .mod
  | 15 => binary .pow
  | 16 => negate
  | 20 => call arg1 arg2
  | place => if 0 ≤ place ∧ place < codeLimit then unassigned code else beyond

/-- The text of an operation; what has no mnemonic has no text. -/
def text? : Operation → Option String
  | constant value => some ("LOAD_CONST " ++ value.describe)
  | load slot => some ("LOAD_VAR " ++ toString slot)
  | store slot => some ("STORE_VAR " ++ toString slot)
  | discard => some "POP_TOP"
  | binary op => some op.mnemonic
  | negate => some "NEGATE"
  | call code arity => some ("CALL_FUNCTION " ++ toString code ++ " " ++ toString arity)
  | blank | unassigned _ | beyond => none

/-- The text of an operation, empty if it has none. -/
def text (operation : Operation) : String := operation.text?.getD ""

end Operation

/-- A number, at least three characters wide. -/
def lineNumber (n : Nat) : String :=
  let ds := toString n
  String.ofList (List.replicate (3 - ds.length) ' ') ++ ds

namespace Program

/-- The note on a call: the name of the function. -/
def callNote (functions : Option FunctionTable) : Operation → String
  | .call code _ =>
    match functions.bind (·.findCode? code) with
    | some f => "  ; " ++ f.name
    | none => ""
  | _ => ""

/-- The line of an instruction. -/
def line (functions : Option FunctionTable) (i : Nat) (instruction : Instruction) : String :=
  "    " ++ lineNumber i ++ ": " ++ instruction.operation.text ++
    callNote functions instruction.operation

/-- The listing of a program.  With a function table, calls are annotated with names. -/
def listing (p : Program) (functions : Option FunctionTable) : String :=
  "\n".intercalate
    (["Program: " ++ p.source, "  Max stack: " ++ toString p.maxStack, "  Instructions:"] ++
      p.code.zipIdx.map fun (instruction, i) => line functions i instruction)

/-- A program in one line. -/
def shown (p : Program) : String :=
  "FuncBaseProgram(" ++ Text.quoted p.source ++ ", " ++ toString p.size ++ " instructions)"

end Program

end Reckoner
