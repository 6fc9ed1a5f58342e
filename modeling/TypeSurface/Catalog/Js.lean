/-!
# The set for JavaScript
-/

namespace TypeSurface
namespace Catalog

/-- The set that realises the mode `js`. -/
def jsText : String :=
  "/// <set id=\"js\" version=\"2.0.0\" mode=\"js\" />\n" ++
  "/// <reference set=\"base\" />

/////////////////////////////
/// Full JavaScript semantics
/////////////////////////////

// Every index, length, count and position uses `int`.

interface SymbolConstructor \x7b
    readonly prototype: Symbol;
    (description?: string | number): symbol;
    for(key: string): symbol;
    keyFor(sym: symbol): string | undefined;
    readonly iterator: symbol;
    readonly asyncIterator: symbol;
\x7d

interface Symbol \x7b
    toString(): string;
    valueOf(): symbol;
    readonly description: string | undefined;
\x7d

declare var Symbol: SymbolConstructor;

type IteratorResult<T> = \x7b done?: false; value: T; \x7d | \x7b done: true; value: undefined; \x7d;

interface Iterator<T> \x7b
    next(): IteratorResult<T>;
    return?(value?: any): IteratorResult<T>;
\x7d

interface Iterable<T> \x7b
    [Symbol.iterator](): Iterator<T>;
\x7d

interface IterableIterator<T> extends Iterator<T> \x7b
    [Symbol.iterator](): IterableIterator<T>;
\x7d

interface ArrayLike<T> \x7b
    readonly length: int;
    readonly [n: int]: T;
\x7d

interface ConcatArray<T> \x7b
    readonly length: int;
    readonly [n: int]: T;
    join(separator?: string): string;
    slice(start?: int, end?: int): T[];
\x7d

interface PropertyDescriptor \x7b
    configurable?: boolean;
    enumerable?: boolean;
    value?: any;
    writable?: boolean;
    get?(): any;
    set?(v: any): void;
\x7d

interface PropertyDescriptorMap \x7b
    [key: string]: PropertyDescriptor;
\x7d

interface ObjectConstructor \x7b
    new (value?: any): Object;
    (): any;
    (value: any): any;
    readonly prototype: Object;
    getPrototypeOf(o: any): any;
    getOwnPropertyNames(o: any): string[];
    create(o: object | null, properties?: PropertyDescriptorMap): any;
    defineProperty<T>(o: T, p: PropertyKey, attributes: PropertyDescriptor): T;
    freeze<T>(o: T): T;
    isFrozen(o: any): boolean;
    seal<T>(o: T): T;
    keys(o: object): string[];
    values<T>(o: \x7b [s: string]: T \x7d | ArrayLike<T>): T[];
    values(o: \x7b\x7d): any[];
    entries<T>(o: \x7b [s: string]: T \x7d | ArrayLike<T>): [string, T][];
    entries(o: \x7b\x7d): [string, any][];
    assign<T extends \x7b\x7d, U>(target: T, source: U): T & U;
    assign(target: object, ...sources: any[]): any;
    fromEntries<T = any>(entries: Iterable<[PropertyKey, T]>): \x7b [k: string]: T \x7d;
    is(value1: any, value2: any): boolean;
\x7d

declare var Object: ObjectConstructor;

interface FunctionConstructor \x7b
    new (...args: string[]): Function;
    (...args: string[]): Function;
    readonly prototype: Function;
\x7d

declare var Function: FunctionConstructor;

/////////////////////////////
/// String
/////////////////////////////

interface String \x7b
    charAt(pos: int): string;
    charCodeAt(index: int): number;
    codePointAt(pos: int): number | undefined;
    concat(...strings: string[]): string;
    indexOf(searchString: string, position?: int): int;
    lastIndexOf(searchString: string, position?: int): int;
    includes(searchString: string, position?: int): boolean;
    startsWith(searchString: string, position?: int): boolean;
    endsWith(searchString: string, endPosition?: int): boolean;
    localeCompare(that: string): number;
    match(regexp: string | RegExp): RegExpMatchArray | null;
    matchAll(regexp: RegExp): IterableIterator<RegExpMatchArray>;
    replace(searchValue: string | RegExp, replaceValue: string): string;
    replace(searchValue: string | RegExp, replacer: (substring: string, ...args: any[]) => string): string;
    replaceAll(searchValue: string | RegExp, replaceValue: string): string;
    search(regexp: string | RegExp): int;
    slice(start?: int, end?: int): string;
    split(separator: string | RegExp, limit?: int): string[];
    substring(start: int, end?: int): string;
    substr(from: int, length?: int): string;
    toLowerCase(): string;
    toLocaleLowerCase(locales?: string | string[]): string;
    toUpperCase(): string;
    toLocaleUpperCase(locales?: string | string[]): string;
    trim(): string;
    trimStart(): string;
    trimEnd(): string;
    padStart(maxLength: int, fillString?: string): string;
    padEnd(maxLength: int, fillString?: string): string;
    repeat(count: int): string;
    normalize(form?: \"NFC\" | \"NFD\" | \"NFKC\" | \"NFKD\"): string;
    at(index: int): string | undefined;
    valueOf(): string;
    [Symbol.iterator](): IterableIterator<string>;
\x7d

interface StringConstructor \x7b
    new (value?: any): String;
    (value?: any): string;
    readonly prototype: String;
    fromCharCode(...codes: number[]): string;
    fromCodePoint(...codePoints: number[]): string;
    raw(template: \x7b raw: readonly string[] | ArrayLike<string>; \x7d, ...substitutions: any[]): string;
\x7d

declare var String: StringConstructor;

/////////////////////////////
/// Boolean, Number, Math
/////////////////////////////

interface BooleanConstructor \x7b
    new (value?: any): Boolean;
    <T>(value?: T): boolean;
    readonly prototype: Boolean;
\x7d

declare var Boolean: BooleanConstructor;

interface Number \x7b
    toFixed(fractionDigits?: number): string;
    toExponential(fractionDigits?: number): string;
    toPrecision(precision?: number): string;
    toLocaleString(locales?: string | string[]): string;
    valueOf(): number;
\x7d

interface NumberConstructor \x7b
    new (value?: any): Number;
    (value?: any): number;
    readonly prototype: Number;
    readonly MAX_VALUE: number;
    readonly MIN_VALUE: number;
    readonly NaN: number;
    readonly NEGATIVE_INFINITY: number;
    readonly POSITIVE_INFINITY: number;
    readonly EPSILON: number;
    readonly MAX_SAFE_INTEGER: int;
    readonly MIN_SAFE_INTEGER: int;
    isFinite(number: unknown): boolean;
    isInteger(number: unknown): boolean;
    isNaN(number: unknown): boolean;
    isSafeInteger(number: unknown): boolean;
    parseFloat(string: string): number;
    parseInt(string: string, radix?: number): number;
\x7d

declare var Number: NumberConstructor;

interface Math \x7b
    readonly E: number;
    readonly LN10: number;
    readonly LN2: number;
    readonly LOG2E: number;
    readonly LOG10E: number;
    readonly PI: number;
    readonly SQRT1_2: number;
    readonly SQRT2: number;
    abs(x: number): number;
    acos(x: number): number;
    asin(x: number): number;
    atan(x: number): number;
    atan2(y: number, x: number): number;
    ceil(x: number): int;
    cos(x: number): number;
    exp(x: number): number;
    floor(x: number): int;
    log(x: number): number;
    log10(x: number): number;
    log2(x: number): number;
    max(...values: number[]): number;
    min(...values: number[]): number;
    pow(x: number, y: number): number;
    random(): number;
    round(x: number): int;
    sign(x: number): number;
    sin(x: number): number;
    sqrt(x: number): number;
    cbrt(x: number): number;
    hypot(...values: number[]): number;
    tan(x: number): number;
    trunc(x: number): int;
    clz32(x: number): int;
\x7d

declare var Math: Math;

/////////////////////////////
/// RegExp
/////////////////////////////

interface RegExpMatchArray extends Array<string> \x7b
    index?: int;
    input?: string;
    0: string;
\x7d

interface RegExpExecArray extends Array<string> \x7b
    index: int;
    input: string;
    0: string;
\x7d

interface RegExp \x7b
    exec(string: string): RegExpExecArray | null;
    test(string: string): boolean;
    readonly source: string;
    readonly flags: string;
    readonly global: boolean;
    readonly ignoreCase: boolean;
    readonly multiline: boolean;
    readonly sticky: boolean;
    readonly unicode: boolean;
    lastIndex: int;
\x7d

interface RegExpConstructor \x7b
    new (pattern: RegExp | string, flags?: string): RegExp;
    (pattern: RegExp | string, flags?: string): RegExp;
    readonly prototype: RegExp;
\x7d

declare var RegExp: RegExpConstructor;

/////////////////////////////
/// Array
/////////////////////////////

interface Array<T> \x7b
    toString(): string;
    toLocaleString(): string;
    /** Removes the last element from an array and returns it. */
    pop(): T | undefined;
    /** Appends new elements to the end of an array, and returns the new length of the array. */
    push(...items: T[]): int;
    concat(...items: ConcatArray<T>[]): T[];
    concat(...items: (T | ConcatArray<T>)[]): T[];
    join(separator?: string): string;
    reverse(): T[];
    shift(): T | undefined;
    slice(start?: int, end?: int): T[];
    sort(compareFn?: (a: T, b: T) => number): this;
    splice(start: int, deleteCount?: int): T[];
    splice(start: int, deleteCount: int, ...items: T[]): T[];
    /** Inserts new elements at the start of an array, and returns the new length of the array. */
    unshift(...items: T[]): int;
    /** Returns the index of the first occurrence of a value in an array, or -1 if it is not present. */
    indexOf(searchElement: T, fromIndex?: int): int;
    lastIndexOf(searchElement: T, fromIndex?: int): int;
    every(predicate: (value: T, index: int, array: T[]) => unknown, thisArg?: any): boolean;
    some(predicate: (value: T, index: int, array: T[]) => unknown, thisArg?: any): boolean;
    forEach(callbackfn: (value: T, index: int, array: T[]) => void, thisArg?: any): void;
    map<U>(callbackfn: (value: T, index: int, array: T[]) => U, thisArg?: any): U[];
    filter<S extends T>(predicate: (value: T, index: int, array: T[]) => value is S, thisArg?: any): S[];
    filter(predicate: (value: T, index: int, array: T[]) => unknown, thisArg?: any): T[];
    reduce(callbackfn: (previousValue: T, currentValue: T, currentIndex: int, array: T[]) => T): T;
    reduce(callbackfn: (previousValue: T, currentValue: T, currentIndex: int, array: T[]) => T, initialValue: T): T;
    reduce<U>(callbackfn: (previousValue: U, currentValue: T, currentIndex: int, array: T[]) => U, initialValue: U): U;
    reduceRight(callbackfn: (previousValue: T, currentValue: T, currentIndex: int, array: T[]) => T): T;
    reduceRight<U>(callbackfn: (previousValue: U, currentValue: T, currentIndex: int, array: T[]) => U, initialValue: U): U;
    find<S extends T>(predicate: (value: T, index: int, obj: T[]) => value is S, thisArg?: any): S | undefined;
    find(predicate: (value: T, index: int, obj: T[]) => unknown, thisArg?: any): T | undefined;
    /** Returns the index of the first element that satisfies the predicate, otherwise -1. */
    findIndex(predicate: (value: T, index: int, obj: T[]) => unknown, thisArg?: any): int;
    findLast(predicate: (value: T, index: int, array: T[]) => unknown, thisArg?: any): T | undefined;
    findLastIndex(predicate: (value: T, index: int, array: T[]) => unknown, thisArg?: any): int;
    fill(value: T, start?: int, end?: int): this;
    copyWithin(target: int, start: int, end?: int): this;
    includes(searchElement: T, fromIndex?: int): boolean;
    flat(depth?: int): any[];
    flatMap<U, This = undefined>(callback: (this: This, value: T, index: int, array: T[]) => U | ReadonlyArray<U>, thisArg?: This): U[];
    at(index: int): T | undefined;
    entries(): IterableIterator<[int, T]>;
    keys(): IterableIterator<int>;
    values(): IterableIterator<T>;
    toReversed(): T[];
    toSorted(compareFn?: (a: T, b: T) => number): T[];
    toSpliced(start: int, deleteCount?: int, ...items: T[]): T[];
    with(index: int, value: T): T[];
    [Symbol.iterator](): IterableIterator<T>;
\x7d

interface ArrayConstructor \x7b
    new (arrayLength?: int): any[];
    new <T>(arrayLength: int): T[];
    new <T>(...items: T[]): T[];
    (arrayLength?: int): any[];
    <T>(arrayLength: int): T[];
    <T>(...items: T[]): T[];
    isArray(arg: any): arg is any[];
    from<T>(arrayLike: ArrayLike<T> | Iterable<T>): T[];
    from<T, U>(arrayLike: ArrayLike<T> | Iterable<T>, mapfn: (v: T, k: int) => U, thisArg?: any): U[];
    of<T>(...items: T[]): T[];
    readonly prototype: any[];
\x7d

declare var Array: ArrayConstructor;

interface ReadonlyArray<T> \x7b
    toString(): string;
    concat(...items: ConcatArray<T>[]): T[];
    join(separator?: string): string;
    slice(start?: int, end?: int): T[];
    indexOf(searchElement: T, fromIndex?: int): int;
    lastIndexOf(searchElement: T, fromIndex?: int): int;
    every(predicate: (value: T, index: int, array: readonly T[]) => unknown, thisArg?: any): boolean;
    some(predicate: (value: T, index: int, array: readonly T[]) => unknown, thisArg?: any): boolean;
    forEach(callbackfn: (value: T, index: int, array: readonly T[]) => void, thisArg?: any): void;
    map<U>(callbackfn: (value: T, index: int, array: readonly T[]) => U, thisArg?: any): U[];
    filter(predicate: (value: T, index: int, array: readonly T[]) => unknown, thisArg?: any): T[];
    reduce<U>(callbackfn: (previousValue: U, currentValue: T, currentIndex: int, array: readonly T[]) => U, initialValue: U): U;
    find(predicate: (value: T, index: int, obj: readonly T[]) => unknown, thisArg?: any): T | undefined;
    findIndex(predicate: (value: T, index: int, obj: readonly T[]) => unknown, thisArg?: any): int;
    includes(searchElement: T, fromIndex?: int): boolean;
    at(index: int): T | undefined;
    entries(): IterableIterator<[int, T]>;
    keys(): IterableIterator<int>;
    values(): IterableIterator<T>;
    [Symbol.iterator](): IterableIterator<T>;
\x7d

/////////////////////////////
/// JSON, console
/////////////////////////////

interface JSON \x7b
    parse(text: string, reviver?: (this: any, key: string, value: any) => any): any;
    stringify(value: any, replacer?: (this: any, key: string, value: any) => any, space?: string | number): string;
    stringify(value: any, replacer?: (number | string)[] | null, space?: string | number): string;
\x7d

declare var JSON: JSON;

interface Console \x7b
    assert(condition?: boolean, ...data: any[]): void;
    clear(): void;
    count(label?: string): void;
    debug(...data: any[]): void;
    error(...data: any[]): void;
    info(...data: any[]): void;
    log(...data: any[]): void;
    table(tabularData?: any, properties?: string[]): void;
    time(label?: string): void;
    timeEnd(label?: string): void;
    trace(...data: any[]): void;
    warn(...data: any[]): void;
\x7d

declare var console: Console;

/////////////////////////////
/// Errors
/////////////////////////////

interface ErrorOptions \x7b
    cause?: unknown;
\x7d

interface Error \x7b
    name: string;
    message: string;
    stack?: string;
    cause?: unknown;
\x7d

interface ErrorConstructor \x7b
    new (message?: string, options?: ErrorOptions): Error;
    (message?: string, options?: ErrorOptions): Error;
    readonly prototype: Error;
\x7d

declare var Error: ErrorConstructor;

interface TypeError extends Error \x7b\x7d

interface TypeErrorConstructor extends ErrorConstructor \x7b
    new (message?: string, options?: ErrorOptions): TypeError;
    (message?: string, options?: ErrorOptions): TypeError;
    readonly prototype: TypeError;
\x7d

declare var TypeError: TypeErrorConstructor;

interface RangeError extends Error \x7b\x7d

interface RangeErrorConstructor extends ErrorConstructor \x7b
    new (message?: string, options?: ErrorOptions): RangeError;
    (message?: string, options?: ErrorOptions): RangeError;
    readonly prototype: RangeError;
\x7d

declare var RangeError: RangeErrorConstructor;

interface SyntaxError extends Error \x7b\x7d

interface SyntaxErrorConstructor extends ErrorConstructor \x7b
    new (message?: string, options?: ErrorOptions): SyntaxError;
    (message?: string, options?: ErrorOptions): SyntaxError;
    readonly prototype: SyntaxError;
\x7d

declare var SyntaxError: SyntaxErrorConstructor;

interface ReferenceError extends Error \x7b\x7d

interface ReferenceErrorConstructor extends ErrorConstructor \x7b
    new (message?: string, options?: ErrorOptions): ReferenceError;
    (message?: string, options?: ErrorOptions): ReferenceError;
    readonly prototype: ReferenceError;
\x7d

declare var ReferenceError: ReferenceErrorConstructor;

/////////////////////////////
/// Collections
/////////////////////////////

interface Map<K, V> \x7b
    clear(): void;
    delete(key: K): boolean;
    forEach(callbackfn: (value: V, key: K, map: Map<K, V>) => void, thisArg?: any): void;
    get(key: K): V | undefined;
    has(key: K): boolean;
    set(key: K, value: V): this;
    /** The number of entries; a count, so it uses the index type. */
    readonly size: int;
    entries(): IterableIterator<[K, V]>;
    keys(): IterableIterator<K>;
    values(): IterableIterator<V>;
    [Symbol.iterator](): IterableIterator<[K, V]>;
\x7d

interface MapConstructor \x7b
    new (): Map<any, any>;
    new <K, V>(entries?: readonly [K, V][] | null): Map<K, V>;
    readonly prototype: Map<any, any>;
\x7d

declare var Map: MapConstructor;

interface Set<T> \x7b
    add(value: T): this;
    clear(): void;
    delete(value: T): boolean;
    forEach(callbackfn: (value: T, value2: T, set: Set<T>) => void, thisArg?: any): void;
    has(value: T): boolean;
    readonly size: int;
    entries(): IterableIterator<[T, T]>;
    keys(): IterableIterator<T>;
    values(): IterableIterator<T>;
    [Symbol.iterator](): IterableIterator<T>;
\x7d

interface SetConstructor \x7b
    new <T = any>(values?: readonly T[] | null): Set<T>;
    readonly prototype: Set<any>;
\x7d

declare var Set: SetConstructor;

interface WeakMap<K extends object, V> \x7b
    delete(key: K): boolean;
    get(key: K): V | undefined;
    has(key: K): boolean;
    set(key: K, value: V): this;
\x7d

interface WeakMapConstructor \x7b
    new <K extends object = object, V = any>(entries?: readonly [K, V][] | null): WeakMap<K, V>;
    readonly prototype: WeakMap<object, any>;
\x7d

declare var WeakMap: WeakMapConstructor;

/////////////////////////////
/// Date, Promise
/////////////////////////////

interface Date \x7b
    toString(): string;
    toDateString(): string;
    toTimeString(): string;
    toISOString(): string;
    toJSON(key?: any): string;
    getTime(): number;
    getFullYear(): number;
    getMonth(): number;
    getDate(): number;
    getDay(): number;
    getHours(): number;
    getMinutes(): number;
    getSeconds(): number;
    getMilliseconds(): number;
    getTimezoneOffset(): number;
    setTime(time: number): number;
    setFullYear(year: number, month?: number, date?: number): number;
    valueOf(): number;
\x7d

interface DateConstructor \x7b
    new (): Date;
    new (value: number | string | Date): Date;
    new (year: number, monthIndex: number, date?: number, hours?: number, minutes?: number, seconds?: number, ms?: number): Date;
    (): string;
    readonly prototype: Date;
    now(): number;
    parse(s: string): number;
    UTC(year: number, monthIndex?: number, date?: number, hours?: number, minutes?: number, seconds?: number, ms?: number): number;
\x7d

declare var Date: DateConstructor;

interface PromiseLike<T> \x7b
    then<TResult1 = T, TResult2 = never>(onfulfilled?: ((value: T) => TResult1 | PromiseLike<TResult1>) | undefined | null, onrejected?: ((reason: any) => TResult2 | PromiseLike<TResult2>) | undefined | null): PromiseLike<TResult1 | TResult2>;
\x7d

interface Promise<T> \x7b
    then<TResult1 = T, TResult2 = never>(onfulfilled?: ((value: T) => TResult1 | PromiseLike<TResult1>) | undefined | null, onrejected?: ((reason: any) => TResult2 | PromiseLike<TResult2>) | undefined | null): Promise<TResult1 | TResult2>;
    catch<TResult = never>(onrejected?: ((reason: any) => TResult | PromiseLike<TResult>) | undefined | null): Promise<T | TResult>;
    finally(onfinally?: (() => void) | undefined | null): Promise<T>;
\x7d

interface PromiseConstructor \x7b
    new <T>(executor: (resolve: (value: T | PromiseLike<T>) => void, reject: (reason?: any) => void) => void): Promise<T>;
    readonly prototype: Promise<any>;
    all<T>(values: Iterable<T | PromiseLike<T>>): Promise<T[]>;
    race<T>(values: Iterable<T | PromiseLike<T>>): Promise<T>;
    reject<T = never>(reason?: any): Promise<T>;
    resolve(): Promise<void>;
    resolve<T>(value: T | PromiseLike<T>): Promise<T>;
\x7d

declare var Promise: PromiseConstructor;

/////////////////////////////
/// Global functions and timers
/////////////////////////////

declare function parseInt(string: string, radix?: number): number;
declare function parseFloat(string: string): number;
declare function isNaN(number: number): boolean;
declare function isFinite(number: number): boolean;
declare function encodeURI(uri: string): string;
declare function decodeURI(encodedURI: string): string;
declare function encodeURIComponent(uriComponent: string | number | boolean): string;
declare function decodeURIComponent(encodedURIComponent: string): string;

declare function setTimeout(handler: (...args: any[]) => void, timeout?: number, ...args: any[]): number;
declare function clearTimeout(id: number | undefined): void;
declare function setInterval(handler: (...args: any[]) => void, timeout?: number, ...args: any[]): number;
declare function clearInterval(id: number | undefined): void;
declare function queueMicrotask(callback: () => void): void;
"

end Catalog
end TypeSurface
