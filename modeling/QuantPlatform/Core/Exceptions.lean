import QuantPlatform.Python.Numerals
import Mathlib.Logic.Relation

namespace QuantPlatform
namespace Core

/-- The exceptions of the application. -/
inductive AppClass
  | appError
  | configError
  | externalAPIError
  | externalAPITimeoutError
  | externalAPIRetryExhaustedError
  | externalAPIAuthError
  | dataValidationError
  | orderError
  | riskViolationError
  | brokerError
  | backtestError
  | researchError
  | strategyVersionExistsError
  | strategyNotFoundError
  | tossApiError
  | tossAuthenticationError
  | tossIpRestrictedError
  | tossRateLimitError
  | tossServerError
  deriving DecidableEq, Repr

namespace AppClass

/-- The class it is derived from; `AppError` itself derives from `Exception`. -/
def base : AppClass → Option AppClass
  | appError => none
  | configError => some appError
  | externalAPIError => some appError
  | externalAPITimeoutError => some externalAPIError
  | externalAPIRetryExhaustedError => some externalAPIError
  | externalAPIAuthError => some externalAPIError
  | dataValidationError => some appError
  | orderError => some appError
  | riskViolationError => some orderError
  | brokerError => some orderError
  | backtestError => some appError
  | researchError => some appError
  | strategyVersionExistsError => some researchError
  | strategyNotFoundError => some researchError
  | tossApiError => some externalAPIError
  | tossAuthenticationError => some tossApiError
  | tossIpRestrictedError => some tossApiError
  | tossRateLimitError => some tossApiError
  | tossServerError => some tossApiError

/-- `issubclass`. -/
def IsSubclass : AppClass → AppClass → Prop :=
  Relation.ReflTransGen fun cls parent => cls.base = some parent

theorem isSubclass_of_base {cls parent ancestor : AppClass} (hbase : cls.base = some parent)
    (h : IsSubclass parent ancestor) : IsSubclass cls ancestor :=
  Relation.ReflTransGen.head hbase h

theorem isSubclass_appError (cls : AppClass) : IsSubclass cls appError := by
  have happ : IsSubclass appError appError := .refl
  have hexternal : IsSubclass externalAPIError appError := isSubclass_of_base rfl happ
  have htoss : IsSubclass tossApiError appError := isSubclass_of_base rfl hexternal
  have horder : IsSubclass orderError appError := isSubclass_of_base rfl happ
  have hresearch : IsSubclass researchError appError := isSubclass_of_base rfl happ
  cases cls with
  | appError => exact happ
  | configError | dataValidationError | backtestError => exact isSubclass_of_base rfl happ
  | externalAPIError => exact hexternal
  | externalAPITimeoutError | externalAPIRetryExhaustedError | externalAPIAuthError =>
    exact isSubclass_of_base rfl hexternal
  | orderError => exact horder
  | riskViolationError | brokerError => exact isSubclass_of_base rfl horder
  | researchError => exact hresearch
  | strategyVersionExistsError | strategyNotFoundError => exact isSubclass_of_base rfl hresearch
  | tossApiError => exact htoss
  | tossAuthenticationError | tossIpRestrictedError | tossRateLimitError | tossServerError =>
    exact isSubclass_of_base rfl htoss

end AppClass

/-- The class of an exception: one of the application, or of the language and
its libraries. -/
inductive ExceptionClass
  | app (cls : AppClass)
  | other (exn : Exn)
  deriving DecidableEq, Repr

/-- An exception as it is raised: its class and `str(exc)`, the attributes of the
Toss errors, and the exception it was raised from. -/
structure Raised where
  cls : ExceptionClass
  text : String
  statusCode : Option Nat := none
  errorCode : Option String := none
  retryAfter : Option PyFloat := none
  cause : Option Raised := none

namespace Raised

/-- `isinstance(exc, AppError)`. -/
def IsAppError (e : Raised) : Prop :=
  ∃ cls, e.cls = .app cls ∧ AppClass.IsSubclass cls .appError

theorem isAppError_of_app {e : Raised} {cls : AppClass} (h : e.cls = .app cls) : e.IsAppError :=
  ⟨cls, h, AppClass.isSubclass_appError cls⟩

theorem not_isAppError_of_other {e : Raised} {exn : Exn} (h : e.cls = .other exn) :
    ¬ e.IsAppError := by
  intro happ
  obtain ⟨cls, hcls, _⟩ := happ
  rw [h] at hcls
  cases hcls

end Raised

end Core
end QuantPlatform
