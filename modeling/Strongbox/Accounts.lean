import Strongbox.Password
import Strongbox.Text.Quoted
import Strongbox.Vault.Caller

/-!
# Accounts

Registration, login, and the parameters from which a client derives its keys. An unknown login and a wrong
password are answered alike.
-/

namespace Strongbox.Accounts

open Store

def logger : Text := Text.ofString "passvault.app.services.auth"

def loginTaken : VaultError := .of .uniquenessConflict (Text.ofString "login already exists")

def register (random : Bytes) (request : Registration) : Routine Account := do
  if request.login.isEmpty || request.password.isEmpty || request.salt.isEmpty then
    .reject (.of .validation)
  else do
    let hash ← Routine.ofOutcome (Password.hash random request.password)
    match ← Routine.statement (selectLogin request.login) with
    | some _ => .reject loginTaken
    | none =>
      match ← Routine.statement (insertUser request.login hash request.salt) with
      | none => .reject loginTaken
      | some user => do
        .say .info logger (Text.ofString "registered user " ++ Text.ofInt user.id)
        pure user.account

def refuse (login : Text) : Routine Account := do
  .say .info logger (Text.ofString "failed login for " ++ login.quoted)
  .reject (.rejected .badCredentials)

def login (request : Credentials) : Routine Account := do
  if request.login.isEmpty || request.password.isEmpty then .reject (.of .validation)
  else
    match ← Routine.statement (selectLogin request.login) with
    | none => refuse request.login
    | some user => do
      let valid ← Routine.ofOutcome (Password.verify request.password user.passwordHash)
      if valid then pure user.account else refuse request.login

def params (caller : Int) : Routine Account := do
  let id ← Routine.ofOutcome (Guard.ownerOf caller)
  match ← Routine.statement (selectUser id) with
  | some user => pure user.account
  | none => .reject (.of .notFound (Text.ofString "user not found"))

end Strongbox.Accounts
