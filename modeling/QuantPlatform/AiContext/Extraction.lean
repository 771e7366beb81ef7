import QuantPlatform.AiContext.Schema
import QuantPlatform.Core.Logging
import QuantPlatform.Effects.Program
import QuantPlatform.Python.Raise

namespace QuantPlatform
namespace AiContext

open QuantPlatform.Core Effects

structure KnownInstrument where
  symbol : String
  exchange : String
  name : Option String

structure ContextExtractionRequest where
  source : String
  externalId : String
  eventKind : EventKind
  eventTime : Instant
  headlineOrTitle : String
  body : Option String
  knownInstruments : List KnownInstrument := []

/-- `f"- {i.symbol} ({i.exchange}){f', {i.name}' if i.name else ''}"`. -/
def instrumentLine (i : KnownInstrument) : String :=
  "- " ++ i.symbol ++ " (" ++ i.exchange ++ ")" ++
    match i.name with
    | none | some "" => ""
    | some name => ", " ++ name

/-- `text or default`. -/
def orElse (text default : String) : String := if text = "" then default else text

def buildPrompt (request : ContextExtractionRequest) : String :=
  let instrumentsBlock :=
    orElse ("\n".intercalate (request.knownInstruments.map instrumentLine)) "(none provided)"
  let body := orElse (request.body.getD "") "(no body text)"
  "Known instruments:\n" ++ instrumentsBlock ++ "\n\n" ++
    "Event kind: " ++ StrEnum.value request.eventKind ++ "\n" ++
    "Event time: " ++ request.eventTime.isoformat ++ "\n" ++
    "Headline/title: " ++ request.headlineOrTitle ++ "\n\n" ++
    "Body:\n" ++ body

/-- What a response has as its `parsed_output`: an instance of the output schema, or anything
else, as the values its attributes have or raise. -/
inductive ParsedOutput (Obj : Type)
  | valid (output : LLMContextOutput)
  | other (getattr : String → Except Raised Obj)

/-- `None`, which has no attribute. -/
def ParsedOutput.none {Obj : Type} : ParsedOutput Obj :=
  .other fun name => .error {
    cls := .other (.other "AttributeError")
    text := "'NoneType' object has no attribute '" ++ name ++ "'" }

/-- An exception of the client, as what `str` returns or raises of it. -/
structure ClientException where
  str : Except Raised String

/-- What `client.messages.parse` and the look at `parsed_output` come to, of a model and a
prompt.  The other arguments of the call are constants. -/
abbrev Client (Obj : Type) :=
  String → String → Except ClientException (ParsedOutput Obj)

/-- An `AIContextResult` whose classification fields hold unchecked objects. -/
structure UncheckedResult (Obj : Type) where
  source : String
  externalId : String
  eventKind : EventKind
  modelName : String
  modelVersion : String
  generatedAt : Instant
  fields : List (String × Obj)

/-- A dataclass does not check its fields. -/
inductive Extracted (Obj : Type)
  | checked (result : AIContextResult)
  | unchecked (result : UncheckedResult Obj)

/-- The fields of an output, in the order in which `ok_result` reads them. -/
def outputFields : List String :=
  ["entities", "event_type", "impact_direction", "impact_duration", "novelty",
    "duplicate_cluster_id", "source_reliability", "impact_horizon", "summary", "rationale"]

def okResult {Obj : Type} (now : Instant) (request : ContextExtractionRequest)
    (modelName modelVersion : String) : ParsedOutput Obj → Except Raised (Extracted Obj)
  | .valid output =>
    .ok (.checked {
      status := .ok
      source := request.source
      externalId := request.externalId
      eventKind := request.eventKind
      modelName, modelVersion
      generatedAt := now
      entities := output.entities
      eventType := output.eventType
      impactDirection := output.impactDirection
      impactDuration := output.impactDuration
      novelty := output.novelty
      duplicateClusterId := output.duplicateClusterId
      sourceReliability := output.sourceReliability
      impactHorizon := output.impactHorizon
      summary := output.summary
      rationale := output.rationale
      parseError := none })
  | .other getattr => do
    let fields ← outputFields.mapM fun name => do return (name, ← getattr name)
    return .unchecked {
      source := request.source
      externalId := request.externalId
      eventKind := request.eventKind
      modelName, modelVersion
      generatedAt := now
      fields }

def unknownResult (now : Instant) (request : ContextExtractionRequest)
    (modelName modelVersion parseError : String) : AIContextResult :=
  { status := .unknown
    source := request.source
    externalId := request.externalId
    eventKind := request.eventKind
    modelName, modelVersion
    generatedAt := now
    parseError := some parseError }

structure ClaudeContextExtractor (Obj : Type) where
  modelVersion : String
  client : Client Obj

namespace ClaudeContextExtractor

variable {Obj : Type}

def modelName : String := "claude"

/-- `extraction_failed`. -/
def failureRecord (now : Instant) (request : ContextExtractionRequest) (error : String) :
    LogRecord :=
  { created := now
    levelname := "WARNING"
    name := "app.ai_context.claude_extractor"
    message := "ai_context.claude_extractor.extraction_failed"
    extraFields := [("source", .str request.source), ("external_id", .str request.externalId),
      ("error", .str error)] }

def reply (extractor : ClaudeContextExtractor Obj) (request : ContextExtractionRequest) :
    Except ClientException (ParsedOutput Obj) :=
  extractor.client extractor.modelVersion (buildPrompt request)

/-- The state is the log. -/
def extract (extractor : ClaudeContextExtractor Obj) (now : Instant)
    (request : ContextExtractionRequest) : Program (List LogRecord) Raised (Extracted Obj) :=
  match extractor.reply request with
  | .error exc => do
    let error ← Program.lift exc.str
    Program.modify fun log => log ++ [failureRecord now request error]
    return .checked (unknownResult now request modelName extractor.modelVersion error)
  | .ok output => Program.lift (okResult now request modelName extractor.modelVersion output)

end ClaudeContextExtractor

section Totality

variable {Obj : Type}

/-- The classification in a result. -/
def AIContextResult.classification (result : AIContextResult) : LLMContextOutput :=
  { entities := result.entities
    eventType := result.eventType
    impactDirection := result.impactDirection
    impactDuration := result.impactDuration
    novelty := result.novelty
    duplicateClusterId := result.duplicateClusterId
    sourceReliability := result.sourceReliability
    impactHorizon := result.impactHorizon
    summary := result.summary
    rationale := result.rationale }

/-- Every field at its unknown variant. -/
def unknownClassification : LLMContextOutput :=
  { entities := []
    eventType := .unknown
    impactDirection := .unknown
    impactDuration := .unknown
    novelty := .unknown
    duplicateClusterId := none
    sourceReliability := .unknown
    impactHorizon := unknownHorizon
    summary := ""
    rationale := "" }

def Extracted.status : Extracted Obj → ExtractionStatus
  | .checked result => result.status
  | .unchecked _ => .ok

/-- The classification fields are those of an output. -/
def Extracted.Classifies (output : LLMContextOutput) : Extracted Obj → Prop
  | .checked result => result.classification = output
  | .unchecked _ => False

/-- An explicit unknown. -/
def Extracted.IsUnknown : Extracted Obj → Prop
  | .checked result =>
    result.status = .unknown ∧ result.classification = unknownClassification ∧
      result.parseError ≠ none
  | .unchecked _ => False

/-- The valid output in a reply. -/
def obtained : Except ClientException (ParsedOutput Obj) → Option LLMContextOutput
  | .ok (.valid output) => some output
  | _ => none

/-- What comes out of an extraction that never raises and never guesses. -/
def IsTotal (output : Option LLMContextOutput) (outcome : Except Raised (Extracted Obj)) : Prop :=
  ∃ result, outcome = .ok result ∧ (result.status = .ok ↔ output ≠ none) ∧
    (∀ valid, output = some valid → result.Classifies valid) ∧
    (output = none → result.IsUnknown)

variable (extractor : ClaudeContextExtractor Obj) (now : Instant)
  (request : ContextExtractionRequest) (log : List LogRecord)

theorem isTotal_of_valid {output : LLMContextOutput}
    (h : extractor.reply request = .ok (.valid output)) :
    IsTotal (some output) (extractor.extract now request log).1 := by
  unfold ClaudeContextExtractor.extract
  rw [h]
  refine ⟨_, rfl, ?_, ?_, nofun⟩
  · exact iff_of_true rfl nofun
  · rintro _ ⟨⟩
    rfl

/-- The isolation boundary: an exception of the client is logged and becomes an unknown. -/
theorem extract_of_exception {exc : ClientException} {error : String}
    (h : extractor.reply request = .error exc) (hstr : exc.str = .ok error) :
    extractor.extract now request log =
      (.ok (.checked (unknownResult now request ClaudeContextExtractor.modelName
        extractor.modelVersion error)),
        log ++ [ClaudeContextExtractor.failureRecord now request error]) := by
  unfold ClaudeContextExtractor.extract
  rw [h]
  show (Program.lift exc.str >>= _) log = _
  rw [hstr]
  rfl

theorem isTotal_unknownResult (modelName modelVersion error : String) :
    @IsTotal Obj none
      (.ok (.checked (unknownResult now request modelName modelVersion error))) := by
  refine ⟨_, rfl, ?_, ?_, ?_⟩
  · simp [Extracted.status, unknownResult]
  · intro valid hvalid
    cases hvalid
  · intro _
    exact ⟨rfl, rfl, by simp [unknownResult]⟩

/-- Past the boundary there is no unknown: what has no valid output raises or claims to. -/
theorem not_isTotal_okResult (modelName modelVersion : String)
    (getattr : String → Except Raised Obj) :
    ¬ IsTotal none (okResult now request modelName modelVersion (.other getattr)) := by
  rintro ⟨result, hok, _, _, hunknown⟩
  obtain ⟨fields, _, hresult⟩ := Raise.bind_eq_ok_iff.mp hok
  cases hresult
  exact hunknown rfl

/-- An extraction is total exactly when the client raised something that `str` can say, or
the response was valid. -/
theorem extract_isTotal_iff :
    IsTotal (obtained (extractor.reply request)) (extractor.extract now request log).1 ↔
      (∃ exc error, extractor.reply request = .error exc ∧ exc.str = .ok error) ∨
        ∃ output, extractor.reply request = .ok (.valid output) := by
  cases hreply : extractor.reply request with
  | error exc =>
    cases hstr : exc.str with
    | ok error =>
      rw [extract_of_exception extractor now request log hreply hstr]
      exact iff_of_true (isTotal_unknownResult now request _ _ error)
        (.inl ⟨exc, error, rfl, hstr⟩)
    | error e =>
      refine iff_of_false ?_ ?_
      · rintro ⟨_, hok, _⟩
        unfold ClaudeContextExtractor.extract at hok
        rw [hreply] at hok
        simp only [hstr] at hok
        cases hok
      · rintro (⟨_, error, ⟨⟩, hok⟩ | ⟨_, ⟨⟩⟩)
        rw [hstr] at hok
        cases hok
  | ok parsed =>
    cases parsed with
    | valid output =>
      exact iff_of_true (isTotal_of_valid extractor now request log hreply)
        (.inr ⟨output, rfl⟩)
    | other getattr =>
      refine iff_of_false ?_ (by simp)
      unfold ClaudeContextExtractor.extract
      rw [hreply]
      exact not_isTotal_okResult now request _ _ getattr

/-- A refusal: the response has no parsed output. -/
theorem refusal_escapes :
    let extractor : ClaudeContextExtractor Unit :=
      { modelVersion := "claude-opus-5", client := fun _ _ => .ok .none }
    let request : ContextExtractionRequest :=
      { source := "rss", externalId := "n-1", eventKind := .news, eventTime := 0
        headlineOrTitle := "Headline", body := none }
    ((extractor.extract 0 request []).1 = .error {
      cls := .other (.other "AttributeError")
      text := "'NoneType' object has no attribute 'entities'" }) ∧
    ¬ IsTotal (obtained (extractor.reply request)) (extractor.extract 0 request []).1 := by
  refine ⟨rfl, ?_⟩
  rintro ⟨_, ⟨⟩, _⟩

end Totality

end AiContext
end QuantPlatform
