import Mathlib.Algebra.Order.Field.Rat
import Mathlib.Data.List.Basic
import Mathlib.Tactic.SplitIfs
import PyStreamAI.Py.Basic

/-!
# Speculative decoding

The decoder drafts a fixed number of tokens at a time and accepts them all, until it has as many
tokens as it was asked for. Every round adds a token or is the last one, so the loop makes at most
as many rounds as there are tokens missing (`generateLoop_enough`).
-/

open Py

namespace PyStreamAI

/-- Configuration for speculative decoding. -/
structure SpeculativeDecodingConfig where
  numDraftTokens : ℤ := 5
  fallbackToGreedy : Bool := true
  expectedSpeedup : ℚ := 5 / 2
  deriving DecidableEq

/-- Speculative decoding: generate multiple tokens, verify with the main model. -/
structure SpeculativeDecoder where
  config : SpeculativeDecodingConfig := {}
  verifiedTokens : ℕ := 0
  rejectedTokens : ℕ := 0
  deriving DecidableEq

/-- The result of `SpeculativeDecoder.get_stats`. -/
structure SpeculationStats where
  verifiedTokens : ℕ
  rejectedTokens : ℕ
  acceptanceRate : ℚ
  estimatedSpeedup : ℚ
  deriving DecidableEq

/-- The words of `s.split()`, after the characters `word` of a word that has begun. -/
def splitWords (word : List Char) : List Char → List (List Char)
  | [] => if word = [] then [] else [word]
  | c :: cs =>
    if isSpace c then
      if word = [] then splitWords [] cs else word :: splitWords [] cs
    else splitWords (word ++ [c]) cs

/-- `len(s.split())`. -/
def wordCount (s : String) : ℕ := (splitWords [] s.toList).length

namespace SpeculativeDecoder

/-- Generate draft tokens with the small model. -/
def draftTokens (_prompt : String) (numTokens : ℤ) : String :=
  String.join (List.replicate numTokens.toNat "draft ")

/-- Verify draft tokens with the main model. -/
def verifyTokens (d : SpeculativeDecoder) (_prompt draftTokens : String) :
    String × SpeculativeDecoder :=
  (draftTokens, { d with verifiedTokens := d.verifiedTokens + 1 })

/-- Generate a single token greedily. -/
def greedyToken (_prompt : String) : String := "token "

/-- The loop of `generate`, in at most `rounds` rounds. -/
def generateLoop (maxTokens : ℤ) :
    ℕ → String → ℕ → SpeculativeDecoder → String × SpeculativeDecoder
  | 0, output, _, d => (output, d)
  | rounds + 1, output, tokensGenerated, d =>
    if (tokensGenerated : ℤ) < maxTokens then
      let drafted := draftTokens output d.config.numDraftTokens
      if drafted = "" then (output, d)
      else
        let (verified, d) := d.verifyTokens output drafted
        if verified ≠ "" then
          generateLoop maxTokens rounds (output ++ verified) (tokensGenerated + wordCount verified)
            { d with verifiedTokens := d.verifiedTokens + wordCount verified }
        -- nothing was accepted
        else if d.config.fallbackToGreedy then
          generateLoop maxTokens rounds (output ++ greedyToken output) (tokensGenerated + 1) d
        else (output, d)
    else (output, d)

/-- Generate using speculative decoding. -/
def generate (d : SpeculativeDecoder) (prompt : String) (maxTokens : ℤ) :
    String × SpeculativeDecoder := generateLoop maxTokens maxTokens.toNat prompt 0 d

/-- Speculation statistics. -/
def getStats (d : SpeculativeDecoder) : SpeculationStats :=
  let totalTokens := d.verifiedTokens + d.rejectedTokens
  { verifiedTokens := d.verifiedTokens
    rejectedTokens := d.rejectedTokens
    acceptanceRate := if 0 < totalTokens then d.verifiedTokens / totalTokens * 100 else 0
    estimatedSpeedup := d.config.expectedSpeedup }

/-! ## The rounds suffice -/

theorem join_replicate_succ (n : ℕ) (s : String) :
    String.join (List.replicate (n + 1) s) = s ++ String.join (List.replicate n s) := by
  rw [List.replicate_succ, String.join_cons]

/-- A draft has a word for each token. -/
theorem wordCount_draftTokens (prompt : String) (numTokens : ℤ) :
    wordCount (draftTokens prompt numTokens) = numTokens.toNat := by
  unfold wordCount draftTokens
  induction numTokens.toNat with
  | zero => rfl
  | succ n ih =>
    rw [join_replicate_succ, String.toList_append]
    show (splitWords [] (String.join (List.replicate n "draft ")).toList).length + 1 = n + 1
    rw [ih]

theorem draftTokens_eq_empty {prompt : String} {numTokens : ℤ} :
    draftTokens prompt numTokens = "" ↔ numTokens ≤ 0 := by
  constructor
  · intro h
    have hcount := wordCount_draftTokens prompt numTokens
    rw [h] at hcount
    have hzero : wordCount "" = 0 := rfl
    omega
  · intro h
    unfold draftTokens
    rw [Int.toNat_of_nonpos h]
    rfl

section Loop

variable {maxTokens : ℤ} {rounds : ℕ} {output : String} {tokensGenerated : ℕ}
  {d : SpeculativeDecoder}

/-- The loop is over when enough tokens were generated or none are drafted. -/
theorem generateLoop_stop
    (h : maxTokens ≤ tokensGenerated ∨ d.config.numDraftTokens ≤ 0) :
    generateLoop maxTokens rounds output tokensGenerated d = (output, d) := by
  cases rounds with
  | zero => rfl
  | succ rounds =>
    unfold generateLoop
    split_ifs with hmore
    · have hempty := h.resolve_left (not_le.mpr hmore)
      exact if_pos (draftTokens_eq_empty.mpr hempty)
    · rfl

theorem generateLoop_succ (hmore : (tokensGenerated : ℤ) < maxTokens)
    (hdraft : 0 < d.config.numDraftTokens) :
    generateLoop maxTokens (rounds + 1) output tokensGenerated d =
      generateLoop maxTokens rounds (output ++ draftTokens output d.config.numDraftTokens)
        (tokensGenerated + d.config.numDraftTokens.toNat)
        { d with verifiedTokens := d.verifiedTokens + 1 + d.config.numDraftTokens.toNat } := by
  have hne : draftTokens output d.config.numDraftTokens ≠ "" :=
    mt draftTokens_eq_empty.mp (not_le.mpr hdraft)
  rw [generateLoop, if_pos hmore]
  dsimp only [verifyTokens]
  rw [if_neg hne, if_pos hne, wordCount_draftTokens]

/-- With one round for each missing token, more rounds change nothing. -/
theorem generateLoop_enough (h : (maxTokens - tokensGenerated).toNat ≤ rounds) (more : ℕ) :
    generateLoop maxTokens (rounds + more) output tokensGenerated d =
      generateLoop maxTokens rounds output tokensGenerated d := by
  induction rounds generalizing output tokensGenerated d with
  | zero =>
    have hdone : maxTokens ≤ tokensGenerated := by omega
    rw [generateLoop_stop (Or.inl hdone), generateLoop_stop (Or.inl hdone)]
  | succ rounds ih =>
    by_cases hgo : (tokensGenerated : ℤ) < maxTokens ∧ 0 < d.config.numDraftTokens
    · rw [Nat.add_right_comm, generateLoop_succ hgo.1 hgo.2, generateLoop_succ hgo.1 hgo.2]
      apply ih
      omega
    · have hstop : maxTokens ≤ tokensGenerated ∨ d.config.numDraftTokens ≤ 0 := by omega
      rw [generateLoop_stop hstop, generateLoop_stop hstop]

end Loop

end SpeculativeDecoder

end PyStreamAI
