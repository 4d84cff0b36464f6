import Kalatori.Definitions

/-!
# Errors

The errors of `error.rs` that the modelled functions return.  What a library says
about its own failure is text that only the log reads, so these errors carry no
payload here; a payload that the daemon puts there itself is kept.
-/

namespace Kalatori

inductive NotHex
  | blockHash
  | metadata
  | storageKey
  | storageValue
  deriving DecidableEq

inductive DbError
  | dbEngineDown
  | dbInternalError
  | codecError
  | orderNotFound (order : String)
  | alreadyPaid (order : String)
  | notPaid (order : String)
  | withdrawalWasAttempted (order : String)
  deriving DecidableEq

inductive OrderError
  | lessThanExistentialDeposit (existential_deposit : F64)
  | unknownCurrency
  | missingParameter (parameter : String)
  | invalidParameter (parameter : String)
  | internalError
  deriving DecidableEq

inductive SignerError
  | signerDown
  | invalidDerivation
  deriving DecidableEq

inductive ChainError
  | assetId
  | assetIdFormat
  | assetsInvalid (chain : String)
  | assetKeyEmpty
  | assetKeyNotSingleHash
  | assetMetadataPlain
  | assetMetadataUnexpected
  | assetMetadataType
  | assetMetadataMapSize
  | assetBalanceFormat
  | assetBalanceNotFound
  | base58PrefixFormatNotSupported
  | base58PrefixMismatch (specs metadata : UInt16)
  | blockHashFormat
  | blockHashLength
  | blockNumberFormat
  | client
  | decimalsFormatNotSupported
  | genesisHashFormat
  | metadataFormat
  | metadataNotDecodeable
  | noBase58Prefix
  | noBlockNumberDefinition
  | noDecimals
  | noMetadataV15
  | noMetaPrefix
  | noStorage
  | noSystem
  | noStorageInSystem
  | noUnit
  | propertiesFormat
  | rawMetadataNotDecodeable
  | unitFormatNotSupported
  | storageValueFormat
  | notHex (what : NotHex)
  | invoiceAccount
  | invalidChain (chain : String)
  | invalidCurrency (currency : String)
  | messageDropped
  | blockSubscriptionTerminated
  | metaVersionErrorPallets
  | balanceNotFound
  | eventsNonexistant
  | storageQuery
  | storageDecodeError
  | registryError
  | parserError
  | transactionNotSignable
  | nothingToSend
  | signer (e : SignerError)
  | wrongNetwork (expected actual rpc : String)
  | serde
  deriving DecidableEq

inductive Error
  | chain (e : ChainError)
  | db (e : DbError)
  | order (e : OrderError)
  | signer (e : SignerError)
  | emptyEndpoints (chain : String)
  | duplicateCurrency (currency : String)
  | fatal
  deriving DecidableEq

end Kalatori
