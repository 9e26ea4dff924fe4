import Countersign.Machine.Run
import Countersign.Proofs.Machine.Move

/-!
# `Countersign.Proofs.Machine.Plan`: runs taken apart into moves

A `Plan` is a finite tree of moves that branches on their answers. At its leaves it comes to an end
or gives up because of a `Mistake` of the script. A plan does not mention the limits, the scheme or
the body: these decide what a move does, not which moves there are.

For every act of the machine there is a plan of the same name, and carrying out the plan is the act
(`act_instruction`, `act_runSegments`). So what holds of every plan holds of every run, and an
induction on plans has one case for the moves and none for the opcodes.

`points` are the benches that a run passes through, which an act as a function does not show: all
of them, also those in the middle of an instruction.
-/

set_option autoImplicit false

namespace Countersign

/-- What can be wrong with a script, whatever the limits are and whatever lies on the stack. -/
inductive Mistake where
  | truncatedPush (offset : Nat)
  | nonPushParameter (op : UInt8)
  | unknownOpcode (op : UInt8)
  | invalidThreshold (m n : Int)

/-- The fault that a mistake is. -/
def Mistake.fault : Mistake → Fault
  | truncatedPush offset => .truncatedPush offset
  | nonPushParameter op => .nonPushParameter op
  | unknownOpcode op => .unknownOpcode op
  | invalidThreshold m n => .invalidThreshold m n

/-- Runs segments one after the other, as a single act. A machine comes to the same end one segment
at a time (`Machine.runAll_of_ok`, `Machine.runAll_of_error`). -/
def Act.runSegments (setting : Setting) : List Segment → Act Unit
  | [] => pure ()
  | segment :: segments => do
    runSegment setting segment
    runSegments setting segments

/-- A tree of moves. At its leaves it answers or gives up. -/
inductive Plan (α : Type) : Type 1
  | done (answer : α)
  | giveUp (mistake : Mistake)
  | move {β : Type} (m : Move β) (rest : β → Plan α)

/-- The bench that an act leaves, whether it answers or faults. -/
def Act.leaves {α : Type} (x : Act α) (b : Bench) : Bench :=
  match x b with
  | .ok _ b' => b'
  | .error _ b' => b'

section
variable {α β : Type} {x : Act α} {f : α → Act β} {b b' : Bench} {answer : α} {fault : Fault}

/-- An act that answers leaves the bench that it answers with. -/
theorem Act.leaves_of_ok (h : x b = .ok answer b') : x.leaves b = b' := by
  rw [leaves, h]

/-- An act that faults leaves the bench on which it does. -/
theorem Act.leaves_of_error (h : x b = .error fault b') : x.leaves b = b' := by
  rw [leaves, h]

/-- A sequence leaves what its second part does, if the first one answers. -/
theorem Act.leaves_bind_of_ok (h : x b = .ok answer b') :
    (x >>= f).leaves b = (f answer).leaves b' := by
  rw [leaves, bind_of_ok h, leaves]

/-- A sequence leaves what its first part does, if that faults. -/
theorem Act.leaves_bind_of_error (h : x b = .error fault b') : (x >>= f).leaves b = b' :=
  leaves_of_error (bind_of_error h)

end

namespace Plan

variable {α β : Type}

protected def bind : Plan α → (α → Plan β) → Plan β
  | done answer, f => f answer
  | giveUp mistake, _ => giveUp mistake
  | move m rest, f => move m fun answer => (rest answer).bind f

instance : Monad Plan where
  pure := done
  bind := Plan.bind

/-- It does not matter how three plans that follow each other are bracketed. -/
protected theorem bind_assoc {γ : Type} (x : Plan α) (f : α → Plan β) (g : β → Plan γ) :
    (x >>= f) >>= g = x >>= fun answer => f answer >>= g := by
  induction x with
  | done answer => rfl
  | giveUp mistake => rfl
  | move m rest ih => exact congrArg (move m) (funext ih)

/-- The plan of a single move. -/
def ofMove (m : Move α) : Plan α :=
  move m done

/-- Carries out a plan. -/
def act (setting : Setting) : Plan α → Act α
  | done answer => pure answer
  | giveUp mistake => throw mistake.fault
  | move m rest => do
    let answer ← m.act setting
    (rest answer).act setting

/-- The benches that a plan passes through, from the first to the last. -/
def points (setting : Setting) : Plan α → Bench → List Bench
  | done _, b | giveUp _, b => [b]
  | move m rest, b =>
    b :: match m.act setting b with
      | .ok answer b' => (rest answer).points setting b'
      | .error _ b' => [b']

/-- Behind a move that answers stand the points of what follows. -/
theorem points_move_of_ok {setting : Setting} {m : Move β} {b b' : Bench} {answer : β}
    (h : m.act setting b = .ok answer b') (rest : β → Plan α) :
    (move m rest).points setting b = b :: (rest answer).points setting b' := by
  rw [points, h]

/-- A move that faults leads to one more point, the last. -/
theorem points_move_of_error {setting : Setting} {m : Move β} {b b' : Bench} {fault : Fault}
    (h : m.act setting b = .error fault b') (rest : β → Plan α) :
    (move m rest).points setting b = [b, b'] := by
  rw [points, h]

/-- The first point is the bench that the plan begins with. -/
theorem head?_points (setting : Setting) (x : Plan α) (b : Bench) :
    (x.points setting b).head? = some b := by
  cases x <;> rw [points] <;> rfl

/-- The last point is the bench that carrying out the plan leaves. -/
theorem getLast?_points (setting : Setting) (x : Plan α) (b : Bench) :
    (x.points setting b).getLast? = some ((x.act setting).leaves b) := by
  induction x generalizing b with
  | done answer => rfl
  | giveUp mistake => rfl
  | move m rest ih =>
      rw [points, act]
      cases hm : m.act setting b with
      | ok answer b' =>
          -- The rest passes through at least one bench, so its last one is the last of all.
          have hne : (rest answer).points setting b' ≠ [] := by
            intro hnil
            have hhead := head?_points setting (rest answer) b'
            rw [hnil] at hhead
            cases hhead
          rw [List.getLast?_cons_of_ne_nil hne, ih answer b', Act.leaves_bind_of_ok hm]
      | error fault b' =>
          rw [Act.leaves_bind_of_error hm]
          rfl

/-- Carrying out an answer does nothing else. -/
@[simp] theorem act_pure (setting : Setting) (answer : α) :
    (pure answer : Plan α).act setting = pure answer :=
  rfl

/-- Carrying out a mistake throws its fault. -/
@[simp] theorem act_giveUp (setting : Setting) (mistake : Mistake) :
    (giveUp mistake : Plan α).act setting = throw mistake.fault :=
  rfl

/-- Carrying out a single move is that move. -/
@[simp] theorem act_ofMove (setting : Setting) (m : Move α) :
    (ofMove m).act setting = m.act setting :=
  bind_pure (m.act setting)

/-- Carrying out two plans that follow each other is to carry out one after the other. -/
@[simp] theorem act_bind (setting : Setting) (x : Plan α) (f : α → Plan β) :
    (x >>= f).act setting = (do let answer ← x.act setting; (f answer).act setting) := by
  induction x with
  | done answer => exact (pure_bind answer fun a => (f a).act setting).symm
  | giveUp mistake => rfl
  | move m rest ih =>
      have hrest : (fun answer => (rest answer >>= f).act setting)
          = fun answer => (rest answer).act setting >>= fun a => (f a).act setting := funext ih
      -- Both sides begin with the move, and behind it the induction hypothesis holds for every
      -- answer.
      show (m.act setting >>= fun answer => (rest answer >>= f).act setting)
        = (m.act setting >>= fun answer => (rest answer).act setting) >>= fun a => (f a).act setting
      rw [bind_assoc, hrest]

/-! ### The plans of the acts -/

/-- The plan of taking `n` items. -/
def popMany (op : UInt8) : (n : Nat) → (taken : List Bytes) → Plan (List Bytes)
  | 0, taken => pure taken
  | n + 1, taken => do
    let item ← ofMove (.pop op)
    popMany op n (item :: taken)

/-- The plan of matching signatures with keys. -/
def matchKeys (digest : Bytes) : (spare : Nat) → (publicKeys signatures : List Bytes) → Plan Bool
  | _, _, [] => pure true
  | _, [], _ :: _ => pure false
  | spare, publicKey :: publicKeys, signature :: signatures => do
    if ← ofMove (.ask publicKey digest signature) then
      matchKeys digest spare publicKeys signatures
    else
      match spare with
      | 0 => pure false
      | spare + 1 => matchKeys digest spare publicKeys (signature :: signatures)

/-- The plan of taking a number. -/
def popNumber : Plan Int := do
  let item ← ofMove (.pop Opcode.checkMultisig)
  return Number.decode item

/-- The plan of a multiple check. -/
def checkMultisig : Plan Bool := do
  let n ← popNumber
  ofMove (.allow n)
  let publicKeys ← popMany Opcode.checkMultisig n.toNat []
  let m ← popNumber
  if m < 1 ∨ n < m then
    giveUp (.invalidThreshold m n)
  else
    let signatures ← popMany Opcode.checkMultisig m.toNat []
    let digest ← ofMove .digest
    matchKeys digest (n.toNat - m.toNat) publicKeys signatures

/-- The operand of `n` bytes at the front of what follows. No move is needed to read it. -/
def operand (offset n : Nat) (following : Bytes) : Plan Bytes :=
  match Bytes.splitAt? n following with
  | some (operand, _) => pure operand
  | none => giveUp (.truncatedPush offset)

/-- The plan of what an opcode asks for. -/
def perform (offset : Nat) (op : UInt8) (following : Bytes) : Plan Nat :=
  match Operation.ofByte op with
  | .pushEmpty => do
    ofMove (.push [])
    return 0
  | .pushBytes count => do
    let item ← operand (offset + 1) count following
    ofMove (.push item)
    return count
  | .pushCounted => do
    let length ← operand (offset + 1) 1 following
    let item ← operand (offset + 2) (Bytes.toNatLE length) (following.drop 1)
    ofMove (.push item)
    return 1 + Bytes.toNatLE length
  | .pushCountedWide => do
    let length ← operand (offset + 1) 2 following
    let item ← operand (offset + 3) (Bytes.toNatLE length) (following.drop 2)
    ofMove (.push item)
    return 2 + Bytes.toNatLE length
  | .pushNumber n => do
    ofMove (.push (Number.encode n))
    return 0
  | .nop => return 0
  | .drop => do
    let _ ← ofMove (.pop op)
    return 0
  | .dup => do
    let item ← ofMove (.peek op)
    ofMove (.push item)
    return 0
  | .checkSignature => do
    let publicKey ← ofMove (.pop op)
    let signature ← ofMove (.pop op)
    let digest ← ofMove .digest
    let accepted ← ofMove (.ask publicKey digest signature)
    ofMove (.push (boolItem accepted))
    return 0
  | .checkMultisig => do
    let accepted ← checkMultisig
    ofMove (.push (boolItem accepted))
    return 0
  | .unknown => giveUp (.unknownOpcode op)

/-- The plan of one instruction. -/
def instruction (role : Role) (offset : Nat) (op : UInt8) (following : Bytes) : Plan Nat := do
  ofMove .tick
  if role = .parameter ∧ isPush op = false then
    giveUp (.nonPushParameter op)
  else
    perform offset op following

/-- The plan of what is left of a segment. -/
def runFrom (role : Role) (offset : Nat) (script : Bytes) : Plan Unit :=
  match script with
  | [] => pure ()
  | op :: following => do
    let width ← instruction role offset op following
    runFrom role (offset + 1 + width) (following.drop width)
termination_by script.length
decreasing_by simp only [List.length_cons, List.length_drop]; omega

/-- The plan of a whole run. -/
def runSegments : List Segment → Plan Unit
  | [] => pure ()
  | segment :: segments => do
    runFrom segment.role 0 segment.script
    runSegments segments

/-! ### Carrying them out -/

variable (setting : Setting)

/-- The plan of taking items takes them. -/
@[simp] theorem act_popMany (op : UInt8) (n : Nat) (taken : List Bytes) :
    (popMany op n taken).act setting = Act.popMany op n taken := by
  induction n generalizing taken with
  | zero => rfl
  | succ n ih => simp [popMany, Act.popMany, Move.act, ih]

/-- The plan of matching asks what the machine asks. -/
@[simp] theorem act_matchKeys (digest : Bytes) (spare : Nat) (publicKeys signatures : List Bytes) :
    (matchKeys digest spare publicKeys signatures).act setting
      = Act.matchKeys setting.scheme digest spare publicKeys signatures := by
  -- Signatures are used up no faster than keys, so the induction is on the keys.
  induction publicKeys generalizing spare signatures with
  | nil => cases signatures <;> simp [matchKeys, Act.matchKeys]
  | cons key keys ih =>
      cases signatures with
      | nil => simp [matchKeys, Act.matchKeys]
      | cons signature signatures =>
          -- `spare` is looked at only after a key did not fit, so asking comes before the split.
          rw [matchKeys.eq_def, Act.matchKeys.eq_def]
          simp only [act_bind, act_ofMove, Move.act]
          refine bind_congr fun accepted => ?_
          cases accepted with
          | true => exact ih spare signatures
          | false =>
              cases spare with
              | zero => rfl
              | succ spare => exact ih spare (signature :: signatures)

/-- The plan of taking a number takes it. -/
@[simp] theorem act_popNumber : popNumber.act setting = Act.popNumber := by
  simp [popNumber, Act.popNumber, Move.act]

/-- The plan of reading an operand reads it. -/
@[simp] theorem act_operand (offset n : Nat) (following : Bytes) :
    (operand offset n following).act setting = Act.operand offset n following := by
  rw [operand, Act.operand]
  cases Bytes.splitAt? n following <;> rfl

/-- The plan of a multiple check does what the machine does. -/
@[simp] theorem act_checkMultisig : checkMultisig.act setting = Act.checkMultisig setting := by
  -- The machine throws and has the rest behind it. A plan has the rest in the other branch.
  rw [checkMultisig, Act.checkMultisig]
  simp only [act_bind, act_ofMove, act_popNumber, act_popMany, Move.act, Act.allow]
  refine bind_congr fun n => ?_
  split
  · rfl
  · rw [pure_bind]
    refine bind_congr fun publicKeys => bind_congr fun m => ?_
    split
    · rfl
    · simp only [act_bind, act_ofMove, act_popMany, act_matchKeys, Move.act]

/-- The plan of an opcode does what the machine does. -/
@[simp] theorem act_perform (offset : Nat) (op : UInt8) (following : Bytes) :
    (perform offset op following).act setting = Act.perform setting offset op following := by
  rw [perform, Act.perform]
  cases Operation.ofByte op with
  | dup =>
    -- The machine reads the stack in the middle of the instruction, for which there is a move.
    simp only [act_bind, act_ofMove, Move.act, Act.peek, bind_assoc]
    refine bind_congr fun b => ?_
    cases b.stack.top? <;> rfl
  | _ => simp [Move.act, Mistake.fault]

/-- The plan of an instruction does what the machine does. -/
@[simp] theorem act_instruction (role : Role) (offset : Nat) (op : UInt8) (following : Bytes) :
    (instruction role offset op following).act setting
      = Act.instruction setting role offset op following := by
  rw [instruction, Act.instruction]
  simp only [act_bind, act_ofMove, Move.act]
  refine bind_congr fun _ => ?_
  split
  · rfl
  · exact act_perform setting offset op following

/-- The plan of what is left of a segment runs it. -/
theorem act_runFrom (role : Role) (offset : Nat) (script : Bytes) :
    (runFrom role offset script).act setting = Act.runFrom setting role offset script := by
  -- A segment is cut where its instructions end, which is the recursion of the plan.
  fun_induction runFrom role offset script with
  | case1 => rw [Act.runFrom, act_pure]
  | case2 offset op following ih =>
      rw [Act.runFrom, act_bind, act_instruction]
      exact bind_congr ih

/-- The plan of a row of segments is the row as one act. -/
theorem act_runSegments (segments : List Segment) :
    (runSegments segments).act setting = Act.runSegments setting segments := by
  induction segments with
  | nil => rfl
  | cons segment segments ih =>
      rw [runSegments, act_bind, act_runFrom, ih]
      rfl

end Plan

end Countersign
