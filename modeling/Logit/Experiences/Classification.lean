import Logit.Experiences.Model
import Logit.Python.Text

/-!
# Tags, categories and embeddings

OpenAI is asked for an experience's tags and its category, and for the vector it is found
by. The answer about tags is parsed line by line; whatever goes wrong ends in a default, so
classifying never fails. Embedding may.

## Main definitions

* `Services` — OpenAI, as functions of what is sent
* `combineTextForEmbedding` — the text an experience is embedded by
* `generateTagsAndCategory` — tags and category of an experience
* `generateEmbedding` — a vector, or the error the service answers with
-/

namespace Logit.Experiences

open Calendar Python

def AVAILABLE_TAGS : List String :=
  ["문서작성", "일정관리", "요구사항정의", "프로세스개선", "데이터분석", "커뮤니케이션", "리서치",
    "문제해결", "협업도구", "프론트엔드", "백엔드", "앱개발", "인프라/클라우드", "DB설계",
    "트러블슈팅", "API연동", "AI/LLM", "코드리뷰", "시스템아키텍처", "UX/UI", "브랜딩",
    "그래픽디자인", "프로토타이핑", "디자인시스템", "영상편집", "모션그래픽", "3D모델링",
    "사용자테스트", "서비스기획", "PM/PO", "사업개발", "전략기획", "시장분석", "지표설정",
    "밴치마킹", "수익모델설계", "콘텐츠제작", "퍼포먼스마케팅", "SNS운영", "광고집행",
    "검색최적화", "CRM", "B2B/B2C영업", "제안서작성", "고객응대", "서비스운영", "QA/테스트",
    "인사/채용", "조직문화", "재무/회계", "이벤트기획"]

def AVAILABLE_CATEGORIES : List String :=
  (StrEnum.members : List ExperienceCategory).map StrEnum.value

/-- The exceptions of OpenAI's client that are told apart. -/
inductive OpenAIError
  | authentication
  | rateLimit
  | connection
  | api
  | other
  deriving DecidableEq, Repr

/-- OpenAI, as functions of the text sent. A completion is `none` if the call raises or the
answer has no content; both are handled alike. -/
structure Services (V : Type) where
  complete : String → Option String
  embed : String → Except OpenAIError V

/-- An error answered to the user. -/
structure HTTPException where
  status : ℕ
  detail : String
  deriving DecidableEq, Repr

/-- `f"{value}"` of an optional text. -/
def pyStr (value : Option String) : String := value.getD "None"

/-- The heading of a text. -/
def TextField.label : TextField → String
  | situation => "상황"
  | task => "과제"
  | action => "행동"
  | result => "결과"
  | problem => "문제"
  | solution => "해결책"
  | insight => "인사이트"
  | content => "내용"

/-- The texts of an object's format; none if the object has no format. -/
def Attributes.formatFields (a : Attributes) : List TextField :=
  match a.formatType with
  | some format => format.fields
  | none => []

/-- One line for the title and one for each text of the format that is there. -/
def combineTextForEmbedding (a : Attributes) : String :=
  let line (field : TextField) : Option String :=
    ((a.text field).filter (· ≠ "")).map fun value => field.label ++ ": " ++ value
  "\n".intercalate (("제목: " ++ pyStr a.title) :: a.formatFields.filterMap line)

/-! ## Tags and category -/

/-- The question about an experience. -/
def classificationPrompt (a : Attributes) : String :=
  let line (field : TextField) : String := field.label ++ ": " ++ pyStr (a.text field)
  let content := "\n".intercalate (("제목: " ++ pyStr a.title) :: a.formatFields.map line)
  "다음 경험 내용을 분석하여 태그와 카테고리를 선택해주세요.\n\n경험 내용:\n" ++ content ++
    "\n\n선택 가능한 태그:\n" ++ ", ".intercalate AVAILABLE_TAGS ++
    "\n\n선택 가능한 카테고리:\n" ++ ", ".intercalate AVAILABLE_CATEGORIES ++
    "\n\n요구사항:\n" ++
    "1. 경험 내용과 가장 관련성 높은 태그를 1~3개 선택\n" ++
    "2. 경험 내용에서 가장 핵심적인 역량 카테고리를 1개 선택\n" ++
    "3. 반드시 아래 형식으로만 반환 (추가 설명 없이):\n" ++
    "태그: 태그1, 태그2, 태그3\n카테고리: 카테고리명"

/-- The tags and the category of an experience. -/
structure Classification where
  tags : String
  category : ExperienceCategory
  deriving DecidableEq, Repr

def defaultClassification : Classification := ⟨"문제해결", .creativeProblemSolving⟩

/-- What a line of the answer adds to what the lines before it said. -/
def readLine (found : Classification) (line : String) : Classification :=
  let line := strip line
  match removePrefix? "태그:" line with
  | some rawTags =>
    let validTags := ((split ',' (strip rawTags)).map strip).filter (· ∈ AVAILABLE_TAGS)
    if validTags = [] then found
    else { found with tags := ", ".intercalate (validTags.take 3) }
  | none =>
    match removePrefix? "카테고리:" line with
    | some rawCategory =>
      match StrEnum.ofValue? (strip rawCategory) with
      | some category => { found with category }
      | none => found
    | none => found

def readAnswer (answer : String) : Classification :=
  (split '\n' (strip answer)).foldl readLine defaultClassification

example : readAnswer "태그: 백엔드, 요리, CRM\n카테고리: 협력적 소통" =
    ⟨"백엔드, CRM", .collaborativeCommunication⟩ := by
  decide +kernel

/-- Asks OpenAI for tags and a category; any failure ends in the default. -/
def generateTagsAndCategory {V : Type} (services : Services V) (a : Attributes) : Classification :=
  match services.complete (classificationPrompt a) with
  | some answer => readAnswer answer
  | none => defaultClassification

/-! ## Embedding -/

def OpenAIError.exception : OpenAIError → HTTPException
  | authentication =>
    ⟨500, "OpenAI API authentication failed. Please check API key configuration."⟩
  | rateLimit => ⟨429, "OpenAI API rate limit exceeded. Please try again later."⟩
  | connection => ⟨503, "Failed to connect to OpenAI API. Please try again later."⟩
  | api => ⟨500, "OpenAI API error occurred while generating embedding."⟩
  | other => ⟨500, "Internal server error while generating embedding."⟩

def generateEmbedding {V : Type} (services : Services V) (text : String) :
    Except HTTPException V :=
  (services.embed text).mapError OpenAIError.exception

end Logit.Experiences
