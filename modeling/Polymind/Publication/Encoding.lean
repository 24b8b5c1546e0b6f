import Polymind.Documents.Ids
import Polymind.Digestion.Models
import Polymind.Lib.Text

/-!
# Splitting a text for the encoder

`RetrievalProfile` of `documents/publication/models.py` and `RetrievalEncoder.split` of
`documents/publication/encoding.py`.  The tokenizer is an arbitrary count of tokens.

Both loops of `split` terminate by what is left of the text: halving makes the slice shorter, and a
slice that is yielded is not empty (`shrink_ok`).
-/

namespace Polymind.Publication

open Json

/-- What planning a publication raises: a `PublicationError` by its category, the `DigestionError` of
`EvidenceIndex.resolve`, or the `ValidationError` of a model. -/
inductive PlanningError where
  | embeddingLimit | provenanceInvalid | invalidInput
  | digestion (fault : Digestion.Fault)
  | validation
deriving DecidableEq

/-- `RetrievalProfile`, within the bounds of its fields. -/
structure RetrievalProfile where
  version : Str
  embeddingModel : Str
  embeddingRevision : Str
  dimension : Nat
  maxTokens : Nat
  maxCharacters : Nat
  dimension_pos : 0 < dimension
  maxTokens_bounds : 8 ≤ maxTokens ∧ maxTokens ≤ 240
  maxCharacters_bounds : 8 ≤ maxCharacters ∧ maxCharacters ≤ 4096

def RetrievalProfile.modelDump (p : RetrievalProfile) : Json :=
  .record [("version", .str p.version), ("embedding_model", .str p.embeddingModel),
    ("embedding_revision", .str p.embeddingRevision), ("dimension", .nat p.dimension),
    ("normalized", .bool true), ("max_tokens", .nat p.maxTokens),
    ("max_characters", .nat p.maxCharacters), ("provenance_schema", .text "evidence/1"),
    ("publication_schema", .text "publication/1")]

def RetrievalProfile.digest {U : Type} (ids : Ids U) (p : RetrievalProfile) : Str :=
  ids.fingerprint p.modelDump

structure RetrievalEncoder where
  profile : RetrievalProfile
  /-- `len(tokenizer(text)['input_ids'])`. -/
  count : Str → Nat

namespace RetrievalEncoder

variable (encoder : RetrievalEncoder) (text : Str)

/-- The inner loop of `split`. -/
def shrink (start stop : Nat) : Except PlanningError Nat :=
  if encoder.count (Text.slice text start stop) ≤ encoder.profile.maxTokens then .ok stop
  else
    let half := start + (stop - start) / 2
    if half ≤ start then .error .embeddingLimit else shrink start half
termination_by stop - start
decreasing_by omega

variable {encoder text}

/-- The slice that the inner loop ends with is not empty, and has few enough tokens. -/
theorem shrink_ok {start stop k : Nat} (hlt : start < stop)
    (h : encoder.shrink text start stop = .ok k) :
    start < k ∧ k ≤ stop ∧ encoder.count (Text.slice text start k) ≤ encoder.profile.maxTokens := by
  fun_induction shrink encoder text start stop with
  | case1 stop hfits =>
    obtain rfl := Except.ok.inj h
    exact ⟨hlt, Nat.le_refl _, hfits⟩
  | case2 => cases h
  | case3 stop hfits half hhalf ih =>
    obtain ⟨hlo, hhi, hcount⟩ := ih (by omega) h
    exact ⟨hlo, by omega, hcount⟩

theorem shrink_error {start stop : Nat} {e : PlanningError}
    (h : encoder.shrink text start stop = .error e) : e = .embeddingLimit := by
  fun_induction shrink encoder text start stop with
  | case1 => cases h
  | case2 => exact (Except.error.inj h).symm
  | case3 stop hfits half hhalf ih => exact ih h

variable (encoder text)

/-- The end of the longest slice that is tried. -/
def reach (start : Nat) : Nat := min text.length (start + encoder.profile.maxCharacters)

variable {text} in
theorem lt_reach {start : Nat} (h : start < text.length) : start < encoder.reach text start := by
  have hbounds := encoder.profile.maxCharacters_bounds
  unfold reach
  omega

/-- A slice that `split` yields. -/
structure Slice where
  start : Nat
  stop : Nat
  text : Str
deriving DecidableEq

/-- The outer loop of `split`: the slices it yields, and what it raises after them. -/
def splitFrom (start : Nat) : List Slice × Except PlanningError Unit :=
  if hlt : start < text.length then
    match hstop : encoder.shrink text start (encoder.reach text start) with
    | .error e => ([], .error e)
    | .ok stop =>
      let rest := splitFrom stop
      (⟨start, stop, Text.slice text start stop⟩ :: rest.1, rest.2)
  else ([], .ok ())
termination_by text.length - start
decreasing_by
  have := shrink_ok (encoder.lt_reach hlt) hstop
  omega

/-- `split`. -/
def split : List Slice × Except PlanningError Unit := encoder.splitFrom text 0

end RetrievalEncoder

end Polymind.Publication
