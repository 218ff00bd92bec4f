import LayeredRtp.Failure
import LayeredRtp.Quoted.Extending
import LayeredRtp.Quoted.Unassigned

/-! A state with one owner, reached by tasks that are done in the order in which they were
sent. A task that breaks stops the owner for good, and every later task fails. The name of
an owner is shown between double quotes, where every character without a shape of its own
is written as an escape. -/
namespace LayeredRtp

namespace Quoted

/-- Controls, spaces other than the plain one, characters that only tell how to set others,
and characters for private use. -/
def invisible : List (Nat × Nat) :=
  [(0x0000, 0x001F), (0x007F, 0x00A0), (0x00AD, 0x00AD), (0x0600, 0x0605), (0x061C, 0x061C),
   (0x06DD, 0x06DD), (0x070F, 0x070F), (0x0890, 0x0891), (0x08E2, 0x08E2), (0x1680, 0x1680),
   (0x180E, 0x180E), (0x2000, 0x200F), (0x2028, 0x202F), (0x205F, 0x2064), (0x2066, 0x206F),
   (0x3000, 0x3000), (0xE000, 0xF8FF), (0xFEFF, 0xFEFF), (0xFFF9, 0xFFFB), (0x110BD, 0x110BD),
   (0x110CD, 0x110CD), (0x13430, 0x1343F), (0x1BCA0, 0x1BCA3), (0x1D173, 0x1D17A),
   (0xE0001, 0xE0001), (0xE0020, 0xE007F), (0xF0000, 0xFFFFD), (0x100000, 0x10FFFD)]

def fillers : List (Nat × Nat) := [(0x115F, 0x1160), (0x3164, 0x3164), (0xFFA0, 0xFFA0)]

def within (ranges : List (Nat × Nat)) (c : Char) : Bool :=
  ranges.any fun r => r.1 ≤ c.toNat && c.toNat ≤ r.2

def isShown (c : Char) : Bool :=
  !(within invisible c || within fillers c || within extending c || within unassigned c)

def escape (c : Char) : List Char :=
  if c = '"' then ['\\', '"']
  else if c = '\\' then ['\\', '\\']
  else if c = '\n' then ['\\', 'n']
  else if c = '\r' then ['\\', 'r']
  else if c = '\t' then ['\\', 't']
  else if c.toNat = 0 then ['\\', '0']
  else if isShown c then [c]
  else ['\\', 'u', '\x7b'] ++ Nat.toDigits 16 c.toNat ++ ['\x7d']

def text (s : String) : String :=
  "\"" ++ String.ofList (s.toList.flatMap escape) ++ "\""

end Quoted

structure Mailbox (σ : Type) where
  name : String
  state : Option σ

namespace Mailbox
variable {σ α : Type}

def spawn (name : String) (state : σ) : Checked (Mailbox σ) :=
  if name.toList.contains '\x00' then .error .nulInName else .ok ⟨name, some state⟩

/-- Runs a task and gives its answer. A breach inside it leaves nobody to answer. -/
def run (m : Mailbox σ) (task : σ → Checked (α × σ)) : Except Failure α × Mailbox σ :=
  match m.state with
  | none => (.error .gone, m)
  | some s =>
    match task s with
    | .ok (a, s) => (.ok a, { m with state := some s })
    | .error _ => (.error .gone, { m with state := none })

def send (m : Mailbox σ) (task : σ → Checked σ) : Except Failure Unit × Mailbox σ :=
  match m.state with
  | none => (.error .gone, m)
  | some s => (.ok (), { m with state := (task s).toOption })

def runFromWithin (m : Mailbox σ) (_task : σ → Checked (α × σ)) : Checked α :=
  .error (.ownThread m.name)

def text (m : Mailbox σ) : String := "Worker \x7b name: " ++ Quoted.text m.name ++ " \x7d"

end Mailbox

end LayeredRtp
