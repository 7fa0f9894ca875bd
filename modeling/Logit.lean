import Logit.Auth.Admission
import Logit.Auth.Identity
import Logit.Auth.OAuthState
import Logit.Auth.Revocation
import Logit.Auth.SigningKeys
import Logit.Auth.TempCodes
import Logit.Chats.Background
import Logit.Chats.Compensation
import Logit.Chats.Conversation
import Logit.Chats.Prompts
import Logit.Chats.RemainingChats
import Logit.Experiences.FailedClassification
import Logit.Experiences.Formats
import Logit.Experiences.Matching
import Logit.Payments.Charges
import Logit.Payments.Isolation
import Logit.Payments.McpTokens
import Logit.Payments.Offers
import Logit.Payments.RefundSessions
import Logit.Payments.Totality
import Logit.Projects.Deletion
import Logit.Projects.Ownership
import Logit.Projects.QuestionOrder
import Logit.Python.Uuid
import Logit.Reports.Aggregates
import Logit.Subscriptions.Counters
import Logit.Tokens.AttendanceTrouble
import Logit.Tokens.FirstContact
import Logit.Tokens.GrantLimits
import Logit.Tokens.PaidPlan
import Logit.Users.CodeSessions
import Logit.Users.Deadlocks
