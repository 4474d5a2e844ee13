import IotPanel.Js.RegExp
import IotPanel.Lib.Text
import Mathlib.Data.List.Forall2

/-!
# Topics of commands

Commands are sent on topics that are made of a prefix, a device and a command. A topic that comes
in is compared with a pattern, which is turned into a regular expression.
-/

namespace IotPanel.TopicBuilder

open RegExp

/-! ### Building -/

def broadcast (command broadcastTopic : String) : String := broadcastTopic ++ "/" ++ command

def unicast (command topicPrefix deviceId : String) : String :=
  topicPrefix ++ "/" ++ deviceId ++ "/" ++ command

namespace buildTopic

def discoverBroadcast := broadcast "discover"
def diagBroadcast := broadcast "diagnose"
def discoverUnicast := unicast "discover"
def diagUnicast := unicast "diagnose"
def firmwareUpgrade := unicast "firmware/upgrade"
def heartbeat := unicast "heartbeat"
def reboot := unicast "reboot"
def config := unicast "config"
def assign := unicast "assign"
def telemetry := unicast "telemetry"
def metrics := unicast "metrics"

/-- All builders; those of broadcasts ignore the device. -/
def all : List (String → String → String) :=
  [fun p _ => discoverBroadcast p, fun p _ => diagBroadcast p, discoverUnicast, diagUnicast,
    firmwareUpgrade, heartbeat, reboot, config, assign, telemetry, metrics]

end buildTopic

/-! ### Matching -/

def matchesTopic (pattern topic : String) : Except Fault Bool := do
  let regex ← compile ("^" ++ Text.replace (Text.replace (Text.replace pattern
    "{deviceId}" "([^/]+)") "{clientId}" "([^/]+)") "{type}" "([^/]+)" ++ "$")
  return test regex topic

def placeholders : List String := ["{deviceId}", "{clientId}", "{type}"]

/-- What a segment of a pattern is meant to match. -/
def SegmentMatches (part segment : String) : Prop :=
  if part ∈ placeholders then segment ≠ "" else segment = part

/-- A pattern is meant to match segment by segment. -/
def SegmentsMatch (pattern topic : String) : Prop :=
  List.Forall₂ SegmentMatches (Text.split pattern '/') (Text.split topic '/')

/-- `matchesTopic` answers, and it answers as it is meant to. -/
def Agrees (pattern topic : String) : Prop :=
  ∃ answer, matchesTopic pattern topic = .ok answer ∧
    (answer = true ↔ SegmentsMatch pattern topic)

/-- No brace of the text makes a quantifier. -/
def Braceless (part : List Char) : Prop :=
  ∀ rest ∈ part.tails, rest.head? = some '{' → readBraces rest.tail = none

instance (part : List Char) : Decidable (Braceless part) := inferInstanceAs (Decidable (∀ _ ∈ _, _))

/-- A literal that stands for itself in a regular expression, and holds no placeholder. -/
structure Literal (part : String) : Prop where
  noSyntax : ∀ c ∈ part.toList, isSyntax c = false
  braceless : Braceless part.toList
  noPlaceholder : ∀ text ∈ placeholders, ¬ text.toList <:+: part.toList

theorem noSyntax_iff (part : List Char) :
    (part.all fun c => !isSyntax c) = true ↔ ∀ c ∈ part, isSyntax c = false := by
  simp only [List.all_eq_true, Bool.not_eq_true']

instance (part : String) : Decidable (Literal part) :=
  decidable_of_iff ((part.toList.all fun c => !isSyntax c) = true ∧ Braceless part.toList ∧
      ∀ text ∈ placeholders, ¬ text.toList <:+: part.toList)
    ⟨fun ⟨hspecial, hbraces, hplace⟩ => ⟨(noSyntax_iff _).mp hspecial, hbraces, hplace⟩,
      fun ⟨hspecial, hbraces, hplace⟩ => ⟨(noSyntax_iff _).mpr hspecial, hbraces, hplace⟩⟩

/-- No placeholder stands twice. -/
def Once (pattern : String) : Prop :=
  ∀ text ∈ placeholders, (Text.split pattern '/').count text ≤ 1

/-- A pattern of such literals that uses each placeholder at most once. -/
structure Plain (pattern : String) : Prop where
  literal : ∀ part ∈ Text.split pattern '/', part ∉ placeholders → Literal part
  once : Once pattern

instance (pattern : String) : Decidable (Plain pattern) :=
  decidable_of_iff ((∀ part ∈ Text.split pattern '/', part ∉ placeholders → Literal part) ∧
      ∀ text ∈ placeholders, (Text.split pattern '/').count text ≤ 1)
    ⟨fun ⟨hliteral, honce⟩ => ⟨hliteral, honce⟩, fun ⟨hliteral, honce⟩ => ⟨hliteral, honce⟩⟩

/-! ### Built topics -/

theorem segmentMatches_self (part : String) : SegmentMatches part part := by
  have hne : ∀ text ∈ placeholders, text ≠ "" := by decide
  unfold SegmentMatches
  split
  next h => exact hne part h
  next => rfl

theorem forall₂_segmentMatches_self (parts : List String) :
    List.Forall₂ SegmentMatches parts parts :=
  List.forall₂_same.mpr fun part _ => segmentMatches_self part

theorem segmentsMatch_unicast {deviceId : String} (h : '/' ∉ deviceId.toList)
    (hne : deviceId ≠ "") (command p : String) :
    SegmentsMatch (unicast command p "{deviceId}") (unicast command p deviceId) := by
  rw [SegmentsMatch, unicast, unicast, Text.split_between (by decide), Text.split_between h]
  exact List.rel_append (forall₂_segmentMatches_self _)
    (.cons hne (forall₂_segmentMatches_self _))

/-- A built topic is meant to match its pattern. -/
theorem segmentsMatch_build {build : String → String → String} (hbuild : build ∈ buildTopic.all)
    {deviceId : String} (h : '/' ∉ deviceId.toList) (hne : deviceId ≠ "") (p : String) :
    SegmentsMatch (build p "{deviceId}") (build p deviceId) := by
  simp only [buildTopic.all, List.mem_cons, List.not_mem_nil, or_false] at hbuild
  obtain rfl | rfl | hbuild := hbuild
  · exact forall₂_segmentMatches_self _
  · exact forall₂_segmentMatches_self _
  · obtain ⟨command, rfl⟩ : ∃ command, build = unicast command := by
      obtain rfl | rfl | rfl | rfl | rfl | rfl | rfl | rfl | rfl := hbuild <;> exact ⟨_, rfl⟩
    exact segmentsMatch_unicast h hne command p

/-! ### The source of the expression -/

/-- What a placeholder is replaced by. -/
def groupSource : List Char := "([^/]+)".toList

/-- The parts of a pattern after the replacements. -/
def mark (parts : List (List Char)) : List (List Char) :=
  (placeholders.map String.toList).foldl (fun parts text => parts.replace text groupSource) parts

/-- Every part is a placeholder, or holds none. -/
def Separate (parts : List (List Char)) : Prop :=
  ∀ part ∈ parts, ∀ text ∈ placeholders, part = text.toList ∨ ¬ text.toList <:+: part

theorem Separate.replace {parts : List (List Char)} (h : Separate parts) (text : List Char) :
    Separate (parts.replace text groupSource) := by
  intro part hpart
  obtain hold | rfl := Text.mem_replace hpart
  · exact h part hold
  · decide

theorem replace_join {parts : List (List Char)} {text : String} (htext : text ∈ placeholders)
    (h : Separate parts) :
    Text.replace (String.ofList (['/'].intercalate parts)) text "([^/]+)" =
      String.ofList (['/'].intercalate (parts.replace text.toList groupSource)) := by
  have hsep : '/' ∉ text.toList ∧ text.toList ≠ [] := by
    revert text
    decide
  rw [Text.replace_ofList,
    Text.replaceFirst_intercalate hsep.1 hsep.2 fun part hpart => h part hpart text htext]
  rfl

theorem replace_pattern {pattern : String} (h : Separate (pattern.toList.splitOn '/')) :
    Text.replace (Text.replace (Text.replace pattern "{deviceId}" "([^/]+)")
      "{clientId}" "([^/]+)") "{type}" "([^/]+)" =
      String.ofList (['/'].intercalate (mark (pattern.toList.splitOn '/'))) := by
  have hpattern : pattern = String.ofList (['/'].intercalate (pattern.toList.splitOn '/')) := by
    rw [List.intercalate_splitOn, String.ofList_toList]
  conv_lhs => rw [hpattern]
  rw [replace_join (by decide) h, replace_join (by decide) (h.replace _),
    replace_join (by decide) ((h.replace _).replace _)]
  rfl

end IotPanel.TopicBuilder
