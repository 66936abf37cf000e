import Pictor.Contract.Config

/-!
# The module `pictor_network`

Users, workers, jobs, and the two balances a user has: `credit`, which deposits and grants raise
and which pays for tasks first, and `balance`, which settlements raise and which can be withdrawn.
A mutable reference into a table is a read, followed by a write-back of the changed value.
-/

namespace Pictor

namespace PictorNetwork

def EINITIALIZED : Abort := .code .pictorNetwork 0
def ENOT_AUTHORIZED : Abort := .code .pictorNetwork 1
def ENOT_INITIALIZED : Abort := .code .pictorNetwork 2
def EUSER_NOT_REGISTERED : Abort := .code .pictorNetwork 3
def EJOB_NOT_FOUND : Abort := .code .pictorNetwork 6
def EJOB_EXISTS : Abort := .code .pictorNetwork 7
def EINSUFFICENT_BALANCE : Abort := .code .pictorNetwork 8
def ECREDIT_REQUEST_EXISTS : Abort := .code .pictorNetwork 10
def EINVALID_SIGNATURE : Abort := .code .pictorNetwork 11

/-! ## Views and helpers -/

def isInitialized (w : World) : Bool := w.network.isSome

/-- `get_global_data` and `mut_global_data`. -/
def globalData (w : World) : Result GlobalData :=
  Checked.getOrAbort w.network PictorConfig.addressNotFound

/-- Write back through the reference of `mut_global_data`. -/
def withGlobal (w : World) (global : GlobalData) : World := { w with network := some global }

/-- `get_user_info` and `mut_user_info`. -/
def userInfo (w : World) (userAddr : Address) : Result UserInfo := do
  let global ← globalData w
  global.users.borrow tableNotFound userAddr

/-- Write back through the reference of `mut_user_info`. -/
def withUserInfo (w : World) (userAddr : Address) (info : UserInfo) : Result World := do
  let global ← globalData w
  return withGlobal w { global with users := global.users.insert userAddr info }

def isRegistered (w : World) (userAddr : Address) : Result Bool := do
  let global ← globalData w
  return global.users.contains userAddr

/-- A user's `(balance, credit)`. -/
def getUserBalance (w : World) (userAddr : Address) : Result (UInt64 × UInt64) := do
  let registered ← isRegistered w userAddr
  if registered then
    let info ← userInfo w userAddr
    return (info.balance, info.credit)
  else
    return (0, 0)

def getWorkerOwner (w : World) (workerId : String) : Result Address := do
  let global ← globalData w
  global.workers.borrow tableNotFound workerId

/-- A job's `(number of tasks, payment, is_completed)`. -/
def getJobInfo (w : World) (userAddr : Address) (jobId : String) :
    Result (UInt64 × UInt64 × Bool) := do
  let info ← userInfo w userAddr
  Checked.require (info.jobs.contains jobId = true) EJOB_NOT_FOUND
  let job ← info.jobs.borrow tableNotFound jobId
  let count ← MoveVector.length job.tasks
  return (count, job.payment, job.isCompleted)

/-- The loop of `get_job_info_by_worker`: the tasks below index `i` still have to be added up. -/
def workerLoop (tasks : List Task) (workerId : String) : ℕ → UInt64 → UInt64 →
    Result (UInt64 × UInt64)
  | 0, taskCount, payment => .ok (taskCount, payment)
  | i + 1, taskCount, payment => do
    let task ← MoveVector.borrow tasks i
    if task.workerId = workerId then
      let taskCount ← U64.add taskCount 1
      let payment ← U64.add payment task.cost
      workerLoop tasks workerId i taskCount payment
    else
      workerLoop tasks workerId i taskCount payment

/-- A worker's `(number of tasks, earnings, is_completed)` in a job. -/
def getJobInfoByWorker (w : World) (userAddr : Address) (jobId workerId : String) :
    Result (UInt64 × UInt64 × Bool) := do
  let info ← userInfo w userAddr
  Checked.require (info.jobs.contains jobId = true) EJOB_NOT_FOUND
  let job ← info.jobs.borrow tableNotFound jobId
  let workerPercentage ← PictorConfig.getWorkerEarningPercentage w
  let denominator := PictorConfig.getDenominator
  let (taskCount, payment) ← workerLoop job.tasks workerId job.tasks.length 0 0
  let scaled ← U64.mul payment workerPercentage
  let earned ← U64.div scaled denominator
  return (taskCount, earned, job.isCompleted)

def assertIsOperator (w : World) (operator : Address) : Result Unit := do
  let authorized ← PictorConfig.isOperator w operator
  Checked.require (authorized = true) ENOT_AUTHORIZED

def assertUserRegistered (w : World) (userAddr : Address) : Result Unit := do
  let registered ← isRegistered w userAddr
  Checked.require (registered = true) EUSER_NOT_REGISTERED

def assertJobCreated (w : World) (userAddr : Address) (jobId : String) : Result Unit := do
  let info ← userInfo w userAddr
  Checked.require (info.jobs.contains jobId = true) EJOB_NOT_FOUND

def newUser : UserInfo := { balance := 0, credit := 0, jobs := ∅ }

def registerUserInternal (w : World) (userAddr : Address) : Result World := do
  let global ← globalData w
  if ¬ global.users.contains userAddr = true then
    let users ← global.users.add tableAlreadyExists userAddr newUser
    return withGlobal w { global with users }
  else
    return w

def registerWorkerInternal (w : World) (userAddr : Address) (workerId : String) :
    Result World := do
  let w ← registerUserInternal w userAddr
  let global ← globalData w
  if ¬ global.workers.contains workerId = true then
    let workers ← global.workers.add tableAlreadyExists workerId userAddr
    return withGlobal w { global with workers }
  else
    -- a taken id stays with its owner, and the call returns normally
    return w

/-! ## Entry functions -/

def initializeNetwork (env : Env) (w : World) (owner : Address) : Result World := do
  Checked.require (owner = env.deployer) ENOT_AUTHORIZED
  Checked.require (¬ isInitialized w = true) EINITIALIZED
  return withGlobal w { workers := ∅, users := ∅, creditRequests := ∅ }

def registerUser (w : World) (user : Address) : Result World := do
  Checked.require (isInitialized w = true) ENOT_INITIALIZED
  registerUserInternal w user

def registerWorker (w : World) (user : Address) (workerId : String) : Result World := do
  Checked.require (isInitialized w = true) ENOT_INITIALIZED
  registerWorkerInternal w user workerId

def opRegisterWorker (w : World) (operator userAddr : Address) (workerId : String) :
    Result World := do
  assertIsOperator w operator
  registerWorkerInternal w userAddr workerId

def newJob : Job := { tasks := [], payment := 0, isCompleted := false }

def opCreateJob (w : World) (operator userAddr : Address) (jobId : String) : Result World := do
  assertIsOperator w operator
  let w ← registerUserInternal w userAddr
  let info ← userInfo w userAddr
  Checked.require (¬ info.jobs.contains jobId = true) EJOB_EXISTS
  let jobs ← info.jobs.add tableAlreadyExists jobId newJob
  withUserInfo w userAddr { info with jobs }

/-- The payment of a task: credit first, then balance. -/
def deduct (info : UserInfo) (cost : UInt64) : Result UserInfo := do
  if cost ≤ info.credit then
    let credit ← U64.sub info.credit cost
    return { info with credit }
  else
    let remainingPayment ← U64.sub cost info.credit
    let balance ← U64.sub info.balance remainingPayment
    return { info with credit := 0, balance }

def opAddTask (w : World) (operator userAddr : Address) (jobId : String) (taskId : UInt64)
    (workerId : String) (cost duration : UInt64) : Result World := do
  assertIsOperator w operator
  -- nothing is asked about `worker_id`, or about `is_completed`
  assertJobCreated w userAddr jobId
  let info ← userInfo w userAddr
  let funds ← U64.add info.credit info.balance
  Checked.require (cost ≤ funds) EINSUFFICENT_BALANCE
  let info ← deduct info cost
  let job ← info.jobs.borrow tableNotFound jobId
  let tasks := job.tasks ++ [⟨taskId, workerId, cost, duration⟩]
  let payment ← U64.add job.payment cost
  withUserInfo w userAddr { info with jobs := info.jobs.insert jobId { job with tasks, payment } }

/-- The loop of `op_complete_job`: the tasks below index `i` still have to be paid. Each round reads
the job again from the table that the previous round wrote to. -/
def payLoop (userAddr : Address) (jobId : String) (workerPercentage denominator : UInt64) :
    ℕ → GlobalData → Result GlobalData
  | 0, global => .ok global
  | i + 1, global => do
    let info ← global.users.borrow tableNotFound userAddr
    let job ← info.jobs.borrow tableNotFound jobId
    let task ← MoveVector.borrow job.tasks i
    let ownerAddr ← global.workers.borrow tableNotFound task.workerId
    let ownerInfo ← global.users.borrow tableNotFound ownerAddr
    let scaled ← U64.mul task.cost workerPercentage
    let share ← U64.div scaled denominator
    let balance ← U64.add ownerInfo.balance share
    payLoop userAddr jobId workerPercentage denominator i
      { global with users := global.users.insert ownerAddr { ownerInfo with balance } }

def opCompleteJob (w : World) (operator userAddr : Address) (jobId : String) : Result World := do
  assertIsOperator w operator
  assertJobCreated w userAddr jobId
  let global ← globalData w
  let info ← global.users.borrow tableNotFound userAddr
  let job ← info.jobs.borrow tableNotFound jobId
  -- the flag is set without being looked at
  let job := { job with isCompleted := true }
  let info := { info with jobs := info.jobs.insert jobId job }
  let global := { global with users := global.users.insert userAddr info }
  let workerPercentage ← PictorConfig.getWorkerEarningPercentage w
  let denominator := PictorConfig.getDenominator
  let global ← payLoop userAddr jobId workerPercentage denominator job.tasks.length global
  return withGlobal w global

def opCreditUser (w : World) (operator userAddr : Address) (amount : UInt64) : Result World := do
  assertIsOperator w operator
  let w ← registerUserInternal w userAddr
  let info ← userInfo w userAddr
  let credit ← U64.add info.credit amount
  withUserInfo w userAddr { info with credit }

def opDebitUser (w : World) (operator userAddr : Address) (amount : UInt64) : Result World := do
  assertIsOperator w operator
  assertUserRegistered w userAddr
  let info ← userInfo w userAddr
  Checked.require (amount ≤ info.credit) EINSUFFICENT_BALANCE
  let credit ← U64.sub info.credit amount
  withUserInfo w userAddr { info with credit }

def deposit (env : Env) (w : World) (user : Address) (amount : UInt64) (token : Token) :
    Result World := do
  let w ← registerUserInternal w user
  let info ← userInfo w user
  let credit ← U64.add info.credit amount
  let w ← withUserInfo w user { info with credit }
  -- the credit is already written when the tokens move; an abort below takes it back
  let (fungibleToken, stores) ← PrimaryFungibleStore.withdraw env w.stores user token amount
  PictorConfig.depositVault env { w with stores } fungibleToken token

def withdraw (env : Env) (w : World) (user : Address) (amount : UInt64) (token : Token) :
    Result World := do
  assertUserRegistered w user
  let info ← userInfo w user
  Checked.require (amount ≤ info.balance) EINSUFFICENT_BALANCE
  let balance ← U64.sub info.balance amount
  let w ← withUserInfo w user { info with balance }
  let (fungibleToken, w) ← PictorConfig.withdrawVault env w amount token
  let stores ← PrimaryFungibleStore.deposit env w.stores user fungibleToken
  return { w with stores }

def claimCredit (env : Env) (w : World) (user : Address) (amount requestId : UInt64)
    (signature : List UInt8) : Result World := do
  let w ← registerUserInternal w user
  let global ← globalData w
  Checked.require (¬ global.creditRequests.contains requestId = true) ECREDIT_REQUEST_EXISTS
  let mess := claimMessage amount requestId user
  let adminPubkey ← PictorConfig.getAdminPubkey w
  let upk ← Ed25519.newUnvalidatedPublicKeyFromBytes adminPubkey
  let sig ← Ed25519.newSignatureFromBytes signature
  let check := env.signatureVerifyStrict sig upk mess
  Checked.require (check = true) EINVALID_SIGNATURE
  let info ← global.users.borrow tableNotFound user
  let credit ← U64.add info.credit amount
  let users := global.users.insert user { info with credit }
  let creditRequests ←
    global.creditRequests.add tableAlreadyExists requestId { userAddr := user, amount }
  return withGlobal w { global with users, creditRequests }

end PictorNetwork

end Pictor
