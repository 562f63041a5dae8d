import Mathlib.Data.List.Sort
import Onmc.PyText
import Onmc.Regex
import Onmc.ToolBroker.Redaction

/-! The content sanitizer of the learning machine, rule by rule. -/
namespace Onmc.Learning

open Onmc.ToolBroker (WordChars)
open Regex (Pattern)
open Regex.Pattern (seqs alts opt one run)

inductive Severity where
  | critical | high | medium | low
  deriving DecidableEq

structure Finding where
  ruleId : String
  severity : Severity
  title : String
  detail : String
  found : String
  deriving DecidableEq

namespace Sanitize

/-- `_truncate` -/
def truncate (text : List Char) : String :=
  String.ofList (if text.length ≤ 120 then text else text.take 120 ++ ['…'])

/-- A character where case is ignored, with the four letters past ASCII that fall together with one of
it. -/
def foldCase (c : Char) : Char :=
  if c.toNat = 0x17F then 's'
  else if c.toNat = 0x212A then 'k'
  else if c.toNat = 0x130 ∨ c.toNat = 0x131 then 'i'
  else c.toLower

/-- `\s+` and `\s*` -/
def space : Pattern := run PyText.isSpace 1 none
def space0 : Pattern := run PyText.isSpace 0 none

/-- A literal where case is ignored; a blank in it stands for `\s+`. -/
def words (text : String) : Pattern :=
  seqs (text.toList.map (fun ch => if ch = ' ' then space else one (fun c => foldCase c == foldCase ch)))

/-- A literal where case counts. -/
def exactly (text : String) : Pattern := seqs (text.toList.map (fun ch => one (· == ch)))

/-- A word with or without a final `s`. -/
def plural (word : String) : Pattern := seqs [words word, opt (words "s")]

def anyOf (texts : List String) : Pattern := alts (texts.map words)

def oneOf (chars : String) : Pattern := one chars.toList.contains

/-- `_INJ_OVERRIDE` -/
def override : Pattern := alts [
  seqs [anyOf ["ignore", "disregard", "forget", "override", "bypass", "discard"], space,
    opt (anyOf ["all ", "the ", "your "]),
    opt (anyOf ["previous", "prior", "above", "earlier", "any previous", "any prior", "your previous"]), space0,
    alts (["instruction", "directive", "constraint", "guideline", "rule", "prompt"].map plural ++ [words "context"])],
  seqs [words "do not follow ", opt (words "any "), opt (words "safety "),
    alts (["guideline", "instruction", "rule"].map plural)],
  seqs [words "reveal ", opt (words "your "), alts [words "system prompt", plural "hidden instruction"]]]

/-- `_INJ_PERSONA` -/
def persona [WordChars] : Pattern := alts [
  seqs [words "you are now ", anyOf ["a", "an"], space, run WordChars.isWord 1 none, space0,
    opt (anyOf ["mode", "version", "assistant"])],
  seqs [words "act as ", opt (seqs [words "if you ", anyOf ["are", "were"], space]), anyOf ["a", "an"], space,
    anyOf ["unrestricted", "uncensored", "jailbroken"]],
  seqs [words "enable ", anyOf ["developer", "dan", "jailbreak"], words " mode"]]

/-- `_INJ_TEMPLATE` -/
def template : Pattern := alts [
  seqs [anyOf ["disregard", "ignore", "override", "replace", "suppress"], space, opt (words "the "),
    alts [words "system prompt", plural "system instruction", words "system context"]],
  alts [words "new system prompt", seqs [words "system prompt", space0, oneOf ":="]],
  anyOf ["[INST]", "</s>", "<|im_start|>", "<|im_end|>"],
  seqs [words "###", space0, anyOf ["Instruction", "System", "User", "Assistant"], space0, words ":"]]

/-- One character from a list of ranges. -/
def inRanges (ranges : List (Nat × Nat)) : Pattern :=
  one (fun c => ranges.any (fun range => range.1 ≤ c.toNat && c.toNat ≤ range.2))

/-- `_INJ_ZERO_WIDTH` -/
def zeroWidth : Pattern := inRanges [(0x200B, 0x200D), (0xFEFF, 0xFEFF)]

/-- `_INJ_BIDI` -/
def bidi : Pattern := inRanges [(0x202A, 0x202E), (0x2066, 0x2069)]

/-- `_INJ_TAG` -/
def tag : Pattern := inRanges [(0xE0000, 0xE007F)]

/-- `(?:ba|z|da)?sh` -/
def shell : Pattern := seqs [opt (anyOf ["ba", "z", "da"]), words "sh"]

/-- `_INJ_EXEC_FETCH` -/
def execFetch : Pattern := alts [
  seqs [anyOf ["curl", "wget"], run (fun c => c != '|' && c != '\n') 0 (some 120), words "|", space0,
    opt (words "sudo "), shell, .boundary],
  seqs [shell, words " -c ", opt (oneOf "\"'"), words "$(", anyOf ["curl", "wget"], .boundary]]

/-- `[A-Za-z0-9+/=_\-]` where case is ignored. -/
def secretChar (c : Char) : Bool := (foldCase c).isAlphanum || "+/=_-".toList.contains c

/-- `left[_-]?right` -/
def joined (left right : String) : Pattern := seqs [words left, opt (oneOf "_-"), words right]

/-- `_SEC_RAW` -/
def secretRaw : Pattern := alts [
  seqs [words "-----BEGIN ", opt (anyOf ["RSA ", "EC ", "OPENSSH ", "DSA "]), words "PRIVATE KEY-----"],
  seqs [words "AKIA", run (fun c => (foldCase c).isAlphanum) 16 (some 16)],
  seqs [alts [joined "api" "key", joined "api" "secret", joined "access" "token", joined "secret" "key",
      joined "private" "key", words "password", words "passwd", words "credential", joined "auth" "token"],
    space0, oneOf ":=", space0, opt (oneOf "'\""), run secretChar 16 none, opt (oneOf "'\"")]]

/-- `_SEC_TOKEN`, where case counts. -/
def secretToken : Pattern := alts [
  seqs [exactly "gh", oneOf "pousr", exactly "_", run Char.isAlphanum 20 none],
  seqs [exactly "sk-", run Char.isAlphanum 20 none],
  seqs [exactly "sk-", alts [exactly "proj", exactly "ant", exactly "live", exactly "test"], exactly "-",
    run (fun c => c.isAlphanum || c == '_' || c == '-') 6 none],
  seqs [exactly "xox", oneOf "baprs", exactly "-", run (fun c => c.isAlphanum || c == '-') 10 none],
  seqs [exactly "AIza", run (fun c => c.isAlphanum || c == '_' || c == '-') 35 (some 35)]]

structure Rule where
  pattern : Pattern
  ruleId : String
  severity : Severity
  title : String
  detail : String

/-- `_RULES` -/
def rules [WordChars] : List Rule := [
  ⟨override, "LRN-INJ-001", .high, "Instruction-override phrase",
    "Content tries to nullify or override an agent's existing instructions."⟩,
  ⟨persona, "LRN-INJ-002", .high, "Persona-swap / jailbreak framing",
    "Content attempts to reassign the agent's persona into an unrestricted mode."⟩,
  ⟨template, "LRN-INJ-003", .high, "System-prompt / chat-template injection",
    "Content injects system-prompt overrides or role/chat-template markers."⟩,
  ⟨zeroWidth, "LRN-INJ-004", .medium, "Zero-width Unicode character",
    "Invisible zero-width characters can hide a steganographic injection."⟩,
  ⟨bidi, "LRN-INJ-005", .high, "Bidi override / isolate character",
    "Bidirectional control characters can disguise the true reading order of text."⟩,
  ⟨tag, "LRN-INJ-006", .high, "Unicode tag character",
    "Characters from the Unicode tag block are invisible carriers for hidden text."⟩,
  ⟨execFetch, "LRN-INJ-007", .high, "Fetch-piped-to-shell execution",
    "Content instructs downloading and executing remote code (curl|wget piped to a shell)."⟩,
  ⟨secretRaw, "LRN-SEC-001", .critical, "Embedded secret / credential",
    "Content embeds a private key, AWS key id, or credential assignment."⟩,
  ⟨secretToken, "LRN-SEC-002", .critical, "Provider access token",
    "Content embeds a recognizable provider access-token prefix."⟩]

/-- The findings of one rule, in the order of the text. -/
def findingsOf [WordChars] (rule : Rule) (content : String) : List Finding :=
  (rule.pattern.findAll WordChars.isWord none 0 content.toList).map (fun found =>
    ⟨rule.ruleId, rule.severity, rule.title, rule.detail, truncate found⟩)

def scan [WordChars] (content : String) : List Finding :=
  (rules.flatMap (fun rule => findingsOf rule content)).insertionSort (fun a b => a.ruleId ≤ b.ruleId)

end Sanitize

end Onmc.Learning
