import BtcDk.ScriptNum
import BtcDk.Script
import BtcDk.PublicKey
import BtcDk.FundingScript
import BtcDk.ScriptFormat
import BtcDk.Jni
import BtcDk.Chain
import BtcDk.Wallet
import BtcDk.Database
import BtcDk.ContentStore
import BtcDk.ReferenceWallet
import BtcDk.ChainSync
import BtcDk.Payments
import BtcDk.Journal
import BtcDk.Session
