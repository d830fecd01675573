/-!
# The classification of errors

`is_transient` and `should_step_down` of `error.rs`, over every variant of its `RaftError`. They read nothing of an error but
its variant, and of several errors what these are.
-/

namespace IrohRaft.Classification

inductive RaftError where
  | notLeader
  | nodeNotFound
  | consensus
  | database
  | storage
  | transport
  | notReady
  | proposalRejected
  | configurationChange
  | snapshot
  | timeout
  | circuitBreakerOpen
  | backpressure
  | resourceExhausted
  | transaction
  | storageCorruption
  | insufficientSpace
  | connectionFailed
  | networkPartition
  | serialization
  | protocolMismatch
  | networkTimeout
  | invalidConfiguration
  | missingConfiguration
  | configurationValidation
  | serviceUnavailable
  | authenticationFailed
  | authorizationDenied
  | cryptographic
  | invariantViolation
  | notImplemented
  | invalidState
  | lockPoisoned
  | invalidInput
  | validation
  | constraintViolation
  | io
  | system
  | internal
  | clusterError
  | multiple (errors : List RaftError)

namespace RaftError

mutual

def isTransient : RaftError → Bool
  | .networkTimeout | .connectionFailed | .transport | .serviceUnavailable | .resourceExhausted | .notReady => true
  | .multiple errors => allTransient errors
  | _ => false

/-- `errors.iter().all(|e| e.is_transient())`. -/
def allTransient : List RaftError → Bool
  | [] => true
  | e :: rest => e.isTransient && allTransient rest

end

mutual

def shouldStepDown : RaftError → Bool
  | .networkPartition | .storageCorruption | .insufficientSpace => true
  | .multiple errors => anyStepsDown errors
  | _ => false

/-- `errors.iter().any(|e| e.should_step_down())`. -/
def anyStepsDown : List RaftError → Bool
  | [] => false
  | e :: rest => e.shouldStepDown || anyStepsDown rest

end

end RaftError

end IrohRaft.Classification
