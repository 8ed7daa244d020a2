import Strongbox.Binary64

/-!
# Settings

What an installation can choose, with the values that hold when nothing is chosen.
-/

namespace Strongbox

def Settings.insecureSecretKey : Text := Text.ofString "INSECURE_DEV_KEY_CHANGE_IN_PRODUCTION"

def Settings.insecureIntegrityKey : Text := Text.ofString "INSECURE_DEV_INTEGRITY_KEY"

structure Settings where
  projectName : Text := Text.ofString "PassVault"
  projectVersion : Text := Text.ofString "1.0.0"
  apiPrefix : Text := Text.ofString "/api"
  environment : Text := Text.ofString "development"
  secretKey : Text := Settings.insecureSecretKey
  algorithm : Text := Text.ofString "HS256"
  tokenIssuer : Text := Text.ofString "passvault"
  accessTokenExpireMinutes : Int := 60
  integrityHashKey : Text := Settings.insecureIntegrityKey
  hasherPoolSize : Int := 16
  databaseUrl : Text := Text.ofString "sqlite+aiosqlite:///./passvault.db"
  databaseEcho : Bool := false
  corsOrigins : Text := Text.ofString "http://localhost:8080,http://127.0.0.1:8080"
  gzipMinimumSize : Int := 1024
  maxInflatedBodySize : Int := 10485760
  requestTimeoutSeconds : Binary64 := .ofRatio false 30 1
  logLevel : Text := Text.ofString "INFO"
  deriving Repr

def Settings.names : List String :=
  ["PROJECT_NAME", "PROJECT_VERSION", "API_PREFIX", "ENVIRONMENT", "SECRET_KEY", "ALGORITHM",
    "TOKEN_ISSUER", "ACCESS_TOKEN_EXPIRE_MINUTES", "INTEGRITY_HASH_KEY", "HASHER_POOL_SIZE",
    "DATABASE_URL", "DATABASE_ECHO", "CORS_ORIGINS", "GZIP_MINIMUM_SIZE", "MAX_INFLATED_BODY_SIZE",
    "REQUEST_TIMEOUT_SECONDS", "LOG_LEVEL"]

end Strongbox
