import RegisterBridge.Json.Decode
import RegisterBridge.Text.Blank

namespace RegisterBridge

structure BridgeConfig where
  /-- How many words a poll reads. -/
  wordCount : Nat
  pollIntervalMs : Nat
  /-- The path of the model. Without one, words are passed on as they are. -/
  model : Option String
  /-- The name that the bridge has on the bus. -/
  source : String
deriving DecidableEq

namespace BridgeConfig

def defaultWordCount : Nat := 15

def defaultPollIntervalMs : Nat := 10

/-- The name on the bus for a host, of which the first label counts. -/
def defaultSource (host : String) : String :=
  let label := String.ofList (host.toList.takeWhile (· ≠ '.'))
  "wordmap." ++ if label.isEmpty then "localhost" else label

def default : BridgeConfig :=
  ⟨defaultWordCount, defaultPollIntervalMs, none, defaultSource "localhost"⟩

instance : Inhabited BridgeConfig := ⟨default⟩

def withWordCount (c : BridgeConfig) (wordCount : Nat) : BridgeConfig :=
  { c with wordCount }

def withModel (c : BridgeConfig) (path : String) : BridgeConfig :=
  { c with model := some path }

/-- Reads a number from a variable: digits, with or without a plus. -/
def readSetting? (text : String) : Option Nat :=
  match text.toList with
  | '+' :: digits => readDigits? UInt64.size digits
  | digits => readDigits? UInt64.size digits

/-- The configuration that environment variables give. Those that make no sense are passed
over. -/
def ofEnvironment (lookup? : String → Option String) : BridgeConfig :=
  let nonBlank? (name : String) : Option String :=
    (lookup? name).filter fun text => !(trim text.toList).isEmpty
  { wordCount :=
      (((lookup? "WORDMAP_WORD_COUNT").bind readSetting?).filter (0 < ·)).getD defaultWordCount
    pollIntervalMs :=
      ((lookup? "WORDMAP_POLL_INTERVAL_MS").bind readSetting?).getD defaultPollIntervalMs
    model := nonBlank? "WORDMAP_MODEL"
    source :=
      (nonBlank? "WORDMAP_SOURCE").getD (defaultSource ((lookup? "HOSTNAME").getD "")) }

def encode (c : BridgeConfig) : Json :=
  let number (n : Nat) : Json := .number (.integer n)
  .object ([("word_count", number c.wordCount), ("poll_interval_ms", number c.pollIntervalMs)] ++
    Json.optionalMember "model" .string c.model ++ [("source", .string c.source)])

def decode? (json : JsonSyntax) : Option BridgeConfig := do
  let r ← json.record? [["word_count"], ["poll_interval_ms"], ["model"], ["source"]]
  return {
    wordCount := ← r.orDefault? "word_count" defaultWordCount JsonSyntax.unsigned?
    pollIntervalMs := ← r.orDefault? "poll_interval_ms" defaultPollIntervalMs JsonSyntax.unsigned?
    model := ← r.optional? "model" JsonSyntax.text?
    source := ← r.required? "source" JsonSyntax.text? }

def read? (text : String) : Option BridgeConfig :=
  (JsonSyntax.read? text).bind decode?

end BridgeConfig

end RegisterBridge
