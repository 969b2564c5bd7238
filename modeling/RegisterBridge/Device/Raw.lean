import RegisterBridge.Device.Command
import RegisterBridge.Event.Basic
import RegisterBridge.Message.Basic
import RegisterBridge.Model.Basic
import RegisterBridge.Word.Snapshot

namespace RegisterBridge

/-- What a message writes to when words are passed on without a model: a word, or one bit of a
word whose neighbour tells which bits are meant. -/
inductive RawTarget where
  | word (index : Nat)
  | bit (word bit : Nat)
deriving DecidableEq

namespace RawTarget

/-- Reads `W<word>` or `WBIT<word>#<bit>`. The word after the last one does not exist, and bits
are those of the lower half. -/
def ofDevice? (device : String) : Option RawTarget :=
  match device.toList with
  | 'W' :: 'B' :: 'I' :: 'T' :: rest =>
    match rest.dropWhile (· ≠ '#') with
    | [] => none
    | _ :: digits => do
      let word ← readDigits? (addressBound - 1) (rest.takeWhile (· ≠ '#'))
      let bit ← readDigits? 32 digits
      return .bit word bit
  | _ => (wordIndex? device).map .word

end RawTarget

/-- The integer that begins a text, after blanks. It is missing if its digits alone do not fit a
signed 64-bit integer. -/
def leadingInt? (text : String) : Option Int :=
  let (negative, rest) := match trimStart text.toList with
    | '-' :: r => (true, r)
    | '+' :: r => (false, r)
    | r => (false, r)
  (readDigits? (1 <<< 63) (rest.takeWhile Char.isDigit)).map fun n => if negative then -n else n

def isOn (text : String) : Bool :=
  (leadingInt? text).any (0 < ·) || text == "true" || text == "on"

namespace Raw

/-- A word as the status of a device of its own. -/
def wordEvent (index : Nat) (word : Word) : StatusEvent :=
  ⟨wordName index, defaultStatusName, (Value.ofWord word).toJson, none⟩

/-- The changed words that are set. -/
def changeEvents (snapshot : Snapshot) : List BridgeEvent :=
  let kind := if snapshot.isInitial then EventKind.status else .trigger
  snapshot.changes.filterMap fun change =>
    change.word.map fun word => ⟨kind, wordEvent change.index word⟩

/-- All set words whose names match a filter. -/
def fullState (words : Words) (filter : Option String) : List StatusEvent :=
  words.zipIdx.filterMap fun (word, index) =>
    if matchesFilter filter (wordName index) then word.map (wordEvent index) else none

/-- Stages what a message writes. A bit is always set in the word after its own, and in its own
only if the value is on. -/
def write (message : Message) (pending : Pending) : Except BridgeError Pending :=
  match message.body.device with
  | none => .error (.invalidMessage .missingDevice)
  | some device =>
    match RawTarget.ofDevice? device with
    | none => .error (.unknownDevice device)
    | some (.word index) =>
      .ok (pending.stage index (.ofInt ((message.valueText.bind leadingInt?).getD 0)))
    | some (.bit word bit) =>
      if word + 1 < addressBound then
        let pending := pending.stage (word + 1) (setBit (pending.wordAt (word + 1)) bit true)
        if message.valueText.any isOn then
          .ok (pending.stage word (setBit (pending.wordAt word) bit true))
        else .ok pending
      else .error (.unknownDevice device)

end Raw

end RegisterBridge
