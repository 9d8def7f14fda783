import Coursework.Store.Basic

/-!
# Why a request fails

A `Fault` is a cause with its particulars.  Each cause has one `Locator`, the code that clients
branch on, one HTTP status and one wording.
-/

set_option autoImplicit false

namespace Coursework

/-! ## Locators -/

/-- The codes that clients branch on, grouped by the stage that finds the cause: reading, context,
login, authorization, the fields of the schema, the handler. -/
inductive Locator where
  | malformedRequest
  | missingContent
  | unknownEndpoint
  | forwardFailed
  | missingCourseId
  | courseNotFound
  | missingAssignmentId
  | assignmentNotFound
  | missingUserEmail
  | userNotFound
  | badCredentials
  | badNonce
  | permissionDenied
  | targetUserDenied
  | badRequest
  | roleWithoutCourse
  | rosterWithoutCourse
  | rosterNotSettable
  | rosterFetchFailed
  | filesNotSettable
  | fileStoreFailed
  | noFiles
  | gradingFailed
  | internal
deriving DecidableEq, Repr

namespace Locator

def all : List Locator :=
  [malformedRequest, missingContent, unknownEndpoint, forwardFailed, missingCourseId,
    courseNotFound, missingAssignmentId, assignmentNotFound, missingUserEmail, userNotFound,
    badCredentials, badNonce, permissionDenied, targetUserDenied, badRequest, roleWithoutCourse,
    rosterWithoutCourse, rosterNotSettable, rosterFetchFailed, filesNotSettable, fileStoreFailed,
    noFiles, gradingFailed, internal]

/-- The `code` of a locator as it is sent in an envelope. -/
def code : Locator → String
  | malformedRequest => "-001"
  | missingContent => "-002"
  | unknownEndpoint => "-003"
  | forwardFailed => "-004"
  | missingCourseId => "-010"
  | courseNotFound => "-011"
  | missingAssignmentId => "-012"
  | assignmentNotFound => "-013"
  | missingUserEmail => "-014"
  | userNotFound => "-015"
  | badCredentials => "-016"
  | badNonce => "-017"
  | permissionDenied => "-020"
  | targetUserDenied => "-033"
  | badRequest => "-040"
  | roleWithoutCourse => "-310"
  | rosterWithoutCourse => "-311"
  | rosterNotSettable => "-312"
  | rosterFetchFailed => "-313"
  | filesNotSettable => "-314"
  | fileStoreFailed => "-315"
  | noFiles => "-316"
  | gradingFailed => "-400"
  | internal => "-500"

end Locator

/-! ## Faults -/

/-- Why a request fails.  Among the causes are those that the client can mend (a `malformedRequest`,
a `permissionDenied`), those that a badly declared endpoint is to blame for (`roleWithoutCourse`,
`rosterWithoutCourse` and the two fields that are not settable), and those of the server: a `store`
that refuses, a grader that fails, a handler that breaks down. -/
inductive Fault where
  | malformedRequest (detail : String)
  | missingContent
  | unknownEndpoint (path : String)
  | forwardFailed (detail : String)
  | missingCourseId
  | courseNotFound (id : String)
  | missingAssignmentId
  | assignmentNotFound (id : String)
  | missingUserEmail
  | userNotFound (email : String)
  | badCredentials
  | badNonce
  | permissionDenied
  | targetUserDenied (email : String)
  | badRequest (detail : String)
  | roleWithoutCourse
  | rosterWithoutCourse (field : String)
  | rosterNotSettable (field : String)
  | rosterFetchFailed (detail : String)
  | filesNotSettable (field : String)
  | fileStoreFailed (detail : String)
  | noFiles
  | gradingFailed (detail : String)
  | internal (detail : String)
  | store (e : StoreError)
  | invalid (e : Invalid)
deriving DecidableEq, Repr

namespace Fault

/-- What a request is answered with whose handler broke down, as `hasNext` says of a submission. -/
def brokenDown : Fault :=
  .internal "handler panicked"

/-- The `Locator` of a fault.  Data that breaks a rule counts as a `badRequest`, and a store that
refuses as `internal`. -/
def locator : Fault → Locator
  | malformedRequest _ => .malformedRequest
  | missingContent => .missingContent
  | unknownEndpoint _ => .unknownEndpoint
  | forwardFailed _ => .forwardFailed
  | missingCourseId => .missingCourseId
  | courseNotFound _ => .courseNotFound
  | missingAssignmentId => .missingAssignmentId
  | assignmentNotFound _ => .assignmentNotFound
  | missingUserEmail => .missingUserEmail
  | userNotFound _ => .userNotFound
  | badCredentials => .badCredentials
  | badNonce => .badNonce
  | permissionDenied => .permissionDenied
  | targetUserDenied _ => .targetUserDenied
  | badRequest _ | invalid _ => .badRequest
  | roleWithoutCourse => .roleWithoutCourse
  | rosterWithoutCourse _ => .rosterWithoutCourse
  | rosterNotSettable _ => .rosterNotSettable
  | rosterFetchFailed _ => .rosterFetchFailed
  | filesNotSettable _ => .filesNotSettable
  | fileStoreFailed _ => .fileStoreFailed
  | noFiles => .noFiles
  | gradingFailed _ => .gradingFailed
  | internal _ | store _ => .internal

def status : Fault → Nat
  | malformedRequest _ | missingContent | missingCourseId | missingAssignmentId | badRequest _
  | invalid _ | noFiles => 400
  | missingUserEmail | userNotFound _ | badCredentials | badNonce => 401
  | permissionDenied | targetUserDenied _ => 403
  | unknownEndpoint _ | courseNotFound _ | assignmentNotFound _ => 404
  | forwardFailed _ => 502
  | roleWithoutCourse | rosterWithoutCourse _ | rosterNotSettable _ | rosterFetchFailed _
  | filesNotSettable _ | fileStoreFailed _ | gradingFailed _ | internal _ | store _ => 500

/-- The message of the envelope: what the cause is called, followed by its particulars. -/
def message : Fault → String
  | malformedRequest detail => "malformed request: " ++ detail
  | missingContent => "request is missing the 'content' field"
  | unknownEndpoint path => "unknown endpoint: " ++ path
  | forwardFailed detail => "failed to forward request: " ++ detail
  | missingCourseId => "no course ID specified"
  | courseNotFound id => "course not found: " ++ id
  | missingAssignmentId => "no assignment ID specified"
  | assignmentNotFound id => "assignment not found: " ++ id
  | missingUserEmail => "no user email specified"
  | userNotFound email => "user not found: " ++ email
  | badCredentials => "bad password"
  | badNonce => "invalid or already used root nonce"
  | permissionDenied => "insufficient permissions"
  | targetUserDenied email => "not allowed to act on user: " ++ email
  | badRequest detail => "bad request: " ++ detail
  | roleWithoutCourse => "role requirements declared without course context"
  | rosterWithoutCourse field => "roster field '" ++ field ++ "' requires course context"
  | rosterNotSettable field => "roster field '" ++ field ++ "' is not externally settable"
  | rosterFetchFailed detail => "failed to fetch course roster: " ++ detail
  | filesNotSettable field => "file field '" ++ field ++ "' is not externally settable"
  | fileStoreFailed detail => "failed to store uploaded files: " ++ detail
  | noFiles => "no files were uploaded"
  | gradingFailed detail => "grading failed: " ++ detail
  | internal detail => "internal error: " ++ detail
  | store e => "metadata error: " ++ e.message
  | invalid e => "core error: " ++ e.message

/-- What the store answers, as the answer of a request: its refusals become `store` faults. -/
def ofStore {α : Type} : Except StoreError α → Except Fault α
  | .ok a => .ok a
  | .error e => .error (.store e)

end Fault
end Coursework
